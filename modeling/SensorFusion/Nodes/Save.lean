import SensorFusion.Nodes.Rounds
import SensorFusion.Nodes.Refinement

/-!
# Saving in place

`_save_config` hands the whole document to `Path.write_text`, which empties the file and
then writes it.  Below the level of `serve`, where a failing write leaves anything behind,
this is the file byte by byte: what is left is an initial part of the new document.  And
above it this is the whole request, whose refresh round and response come after the save.

A request that answers with an error leaves the bytes alone when it fails before the save,
or when the file cannot be opened.  `Intact` is what has to hold of the rest.
-/

namespace SensorFusion.Nodes

/-! ## The file -/

/-- The bytes of the configuration file, if there is one. -/
abbrev Disk := Option (List UInt8)

/-- How `Path.write_text` turns out: it succeeds, the file cannot be opened, or it fails
after so many bytes. -/
inductive Fault where
  | none
  | open_failed (exc : String)
  | write_failed (n : ℕ) (exc : String)

/-- The document that `_save_config` hands to `json.dumps`. -/
def document (entries : List Entry) : Json := .arr (entries.map fun e ↦ .obj e.items)

/-- The bytes that `_save_config` writes; `dumps` escapes to ASCII. -/
def fileBytes (cfg : Settings) (entries : List Entry) : List UInt8 :=
  ((document entries).dumps cfg.repr ++ ['\n']).map fun c ↦ UInt8.ofNat c.toNat

/-- `path.write_text`: the text of the `OSError` if there is one, and the file
afterwards. -/
def writeText (data : List UInt8) (disk : Disk) : Fault → Option String × Disk
  | .none => (none, some data)
  | .open_failed exc => (some exc, disk)
  | .write_failed n exc => (some exc, some (data.take n))

/-! ## After the save -/

/-- The exception that a refresh round of these entries ends with: `for_type` hashes the
type of each, outside the `try`. -/
def refreshError : List Entry → Option String
  | [] => none
  | e :: rest =>
      match (e.field "type").key? with
      | none => some (e.field "type").unhashable
      | some _ => refreshError rest

/-- Starting a probe raises for a type without a hash, and for no other. -/
theorem startProbe_of_key (cfg : Settings) (ctx : Ctx) (e : Entry) :
    match (e.field "type").key? with
    | none => startProbe cfg ctx e = .error (e.field "type").unhashable
    | some _ => ∃ call, startProbe cfg ctx e = .ok call := by
  cases hkey : (e.field "type").key? with
  | none =>
      have htype : forType (e.field "type") = .error (e.field "type").unhashable := by
        simp [forType, Json.hash, hkey, bind, Except.bind]
      dsimp only
      rw [startProbe, htype]
  | some k =>
      dsimp only
      cases hstart : startProbe cfg ctx e with
      | ok call => exact ⟨call, rfl⟩
      | error exc =>
          rw [startProbe_error hstart] at hkey
          cases hkey

/-- A round gets as far as `refreshError` says: it raises that exception, or it is through
and there is none, or it waits with the same one ahead. -/
theorem advance_refreshError (cfg : Settings) (state : Registry) (ctx : Ctx) (now : ℚ)
    (rest : List Entry) (new_state : Registry) :
    match advance cfg state ctx now new_state rest with
    | .raised exc => refreshError rest = some exc
    | .waiting p => refreshError rest = refreshError p.rest
    | .finished _ => refreshError rest = none := by
  induction rest generalizing new_state with
  | nil => rfl
  | cons e rest ih =>
      have hstart := startProbe_of_key cfg ctx e
      rw [advance, refreshError]
      cases hkey : (e.field "type").key? with
      | none =>
          rw [hkey] at hstart
          dsimp only at hstart
          rw [hstart]
      | some k =>
          rw [hkey] at hstart
          obtain ⟨call, hcall⟩ := hstart
          rw [hcall]
          cases call with
          | returned extras => exact ih _
          | blocked thread => rfl

/-- What cannot be encoded.  How deeply a document may be nested is up to the interpreter and to
the framework.  And a string that `json.loads` gives can hold half of a surrogate pair, which
UTF-8 has no place for; a string here holds none, so which of them stand for those that do is
left open. -/
structure Codec where
  /-- `json.dumps` of a document does not raise `RecursionError`. -/
  dumps : Json → Bool
  /-- The framework does not raise for the depth of a response. -/
  serializes : Json → Bool
  encodes : String → Bool
  /-- The text of the exception. -/
  error : Json → String

/-- Every float and every string of a document is of some kind, names among them. -/
def every (float : PyFloat → Bool) (string : String → Bool) : Json → Bool
  | .float x => float x
  | .str s => string s
  | .arr items => everyItem items
  | .obj members => everyMember members
  | _ => true
where
  everyItem : List Json → Bool
    | [] => true
    | item :: items => every float string item && everyItem items
  everyMember : List (String × Json) → Bool
    | [] => true
    | (f, v) :: members => string f && every float string v && everyMember members

/-- No float is infinite or a NaN. -/
def finite : Json → Bool := every (fun | .fin _ => true | _ => false) fun _ ↦ true

/-- The exception that rendering a response ends with: the framework goes through it first, then
it is put into JSON, and what that gives is encoded. -/
def renderError (codec : Codec) (j : Json) : Option String :=
  if codec.serializes j then
    if finite j then
      if every (fun _ ↦ true) codec.encodes j then none else some (codec.error j)
    else some "Out of range float values are not JSON compliant"
  else some (codec.error j)

/-- The response of a request that went well: a delete names the id, and the others show
what `_STATE` has under it, which is up to the probes. -/
def Request.response (shown : Json) : Request → Json
  | .create _ | .patch _ _ => shown
  | .delete node_id => .obj [("removed", .str node_id)]

/-- The rest of a request behind its save. -/
def finish (codec : Codec) (r : Request) (shown : Json) (entries : List Entry) :
    Except Failure Unit :=
  match refreshError entries with
  | some exc => .error (.exception exc)
  | none =>
      match renderError codec (r.response shown) with
      | some exc => .error (.exception exc)
      | none => .ok ()

/-- A request to the service: its answer, and the file afterwards; `read` is the file as
reading it turns out.  A document that `json.dumps` raises for does not get to the file. -/
def answer (cfg : Settings) (codec : Codec) (read : Disk → ConfigFile) (r : Request)
    (fault : Fault) (shown : Json) (disk : Disk) : Except Failure Unit × Disk :=
  match r.entries cfg (read disk) with
  | .error f => (.error f, disk)
  | .ok entries =>
      if codec.dumps (document entries) then
        match writeText (fileBytes cfg entries) disk fault with
        | (some exc, disk') =>
            (.error (.http 500 ("write config: " ++ exc ++ " (is the volume rw?)")), disk')
        | (none, disk') => (finish codec r shown entries, disk')
      else (.error (.exception (codec.error (document entries))), disk)

variable {cfg : Settings} {codec : Codec} {read : Disk → ConfigFile}

/-! ## The level above -/

/-- `serve` sees of a fault what reading the file gives after it. -/
def Fault.write (cfg : Settings) (read : Disk → ConfigFile) (r : Request) (disk : Disk) :
    Fault → Write
  | .none => .done
  | .open_failed exc => .failed (read disk) exc
  | .write_failed n exc =>
      match r.entries cfg (read disk) with
      | .error _ => .done
      | .ok entries => .failed (read (some ((fileBytes cfg entries).take n))) exc

/-- If a document that was written reads back, then a request whose document can be written
does to the bytes what `serve` does to what they read as, and what `serve` turns away is
answered so. -/
theorem answer_refines_serve (hread : ∀ es, read (some (fileBytes cfg es)) = dumped es)
    (r : Request) (fault : Fault) (shown : Json) (disk : Disk)
    (hdumps : ∀ es, r.entries cfg (read disk) = .ok es → codec.dumps (document es) = true) :
    read (answer cfg codec read r fault shown disk).2 =
        (serve cfg r (fault.write cfg read r disk) (read disk)).2 ∧
      ∀ f, (serve cfg r (fault.write cfg read r disk) (read disk)).1 = .error f →
        (answer cfg codec read r fault shown disk).1 = .error f := by
  unfold answer serve
  cases hes : r.entries cfg (read disk) with
  | error f => exact ⟨rfl, fun _ h ↦ h⟩
  | ok entries =>
      simp only [hdumps entries hes, if_true]
      cases fault with
      | none => exact ⟨hread entries, fun _ h ↦ nomatch h⟩
      | open_failed exc => exact ⟨rfl, fun _ h ↦ h⟩
      | write_failed n exc =>
          simp only [writeText, Fault.write, hes, saveConfig]
          exact ⟨trivial, fun _ h ↦ h⟩

/-! ## What an error leaves behind -/

/-- The entries all have types with a hash, and the response can be rendered: it is not nested
too deeply, its floats are finite, and its strings can be encoded. -/
structure EndsWell (codec : Codec) (r : Request) (shown : Json) (entries : List Entry) :
    Prop where
  hashable : ∀ e ∈ entries, (e.field "type").key?.isSome
  serializes : codec.serializes (r.response shown) = true
  finite : finite (r.response shown) = true
  encodes : every (fun _ ↦ true) codec.encodes (r.response shown) = true

/-- A request that gets as far as the write keeps the bytes if it answers with an error.
When the write succeeds, what follows ends well, or the new document is the old one; when it
fails, the file cannot be opened, or as much as is written of the new document is the old
one. -/
def Intact (cfg : Settings) (codec : Codec) (read : Disk → ConfigFile) (r : Request)
    (fault : Fault) (shown : Json) (disk : Disk) : Prop :=
  ∀ entries, r.entries cfg (read disk) = .ok entries → codec.dumps (document entries) = true →
    match fault with
    | .none => EndsWell codec r shown entries ∨ disk = some (fileBytes cfg entries)
    | .open_failed _ => True
    | .write_failed n _ => disk = some ((fileBytes cfg entries).take n)

theorem refreshError_eq_none_iff {entries : List Entry} :
    refreshError entries = none ↔ ∀ e ∈ entries, (e.field "type").key?.isSome := by
  induction entries with
  | nil => exact iff_of_true rfl fun _ h ↦ nomatch h
  | cons e rest ih =>
      rw [refreshError, List.forall_mem_cons]
      cases hkey : (e.field "type").key? with
      | none => exact iff_of_false (fun h ↦ nomatch h) (fun h ↦ nomatch h.1)
      | some k => simpa using ih

theorem renderError_eq_none_iff {j : Json} : renderError codec j = none ↔
    codec.serializes j = true ∧ finite j = true ∧
      every (fun _ ↦ true) codec.encodes j = true := by
  rw [renderError]
  split_ifs with hserializes hfinite hencodes
  · exact iff_of_true rfl ⟨hserializes, hfinite, hencodes⟩
  · exact iff_of_false nofun fun h ↦ hencodes h.2.2
  · exact iff_of_false nofun fun h ↦ hfinite h.2.1
  · exact iff_of_false nofun fun h ↦ hserializes h.1

theorem finish_eq_ok_iff {r : Request} {shown : Json} {entries : List Entry} :
    finish codec r shown entries = .ok () ↔ EndsWell codec r shown entries := by
  have hwell : EndsWell codec r shown entries ↔
      refreshError entries = none ∧ renderError codec (r.response shown) = none := by
    rw [refreshError_eq_none_iff, renderError_eq_none_iff]
    constructor
    · rintro ⟨hhash, hserializes, hfinite, hencodes⟩
      exact ⟨hhash, hserializes, hfinite, hencodes⟩
    · rintro ⟨hhash, hserializes, hfinite, hencodes⟩
      exact ⟨hhash, hserializes, hfinite, hencodes⟩
  rw [hwell, finish]
  cases refreshError entries with
  | some exc => exact iff_of_false nofun nofun
  | none =>
      cases renderError codec (r.response shown) with
      | some exc => exact iff_of_false nofun nofun
      | none => exact iff_of_true rfl ⟨rfl, rfl⟩

/-- What follows the save goes well when the round does and the response can be rendered. -/
theorem finish_ok_iff {r : Request} {shown : Json} {entries : List Entry} :
    (∀ f, finish codec r shown entries ≠ .error f) ↔ EndsWell codec r shown entries := by
  rw [← finish_eq_ok_iff]
  cases finish codec r shown entries with
  | ok u => exact iff_of_true nofun rfl
  | error f => exact iff_of_false (fun h ↦ h f rfl) nofun

/-- Every request, on every file and with every fault, leaves the file byte for byte as it
was when it answers with an error, if and only if it is intact. -/
theorem error_keeps_file_iff (cfg : Settings) (codec : Codec) (read : Disk → ConfigFile)
    (r : Request) (fault : Fault) (shown : Json) (disk : Disk) :
    (∀ f, (answer cfg codec read r fault shown disk).1 = .error f →
        (answer cfg codec read r fault shown disk).2 = disk) ↔
      Intact cfg codec read r fault shown disk := by
  unfold answer Intact
  cases hes : r.entries cfg (read disk) with
  | error f => exact iff_of_true (fun _ _ ↦ rfl) fun _ h ↦ nomatch h
  | ok entries =>
      simp only [Except.ok.injEq, forall_eq']
      cases hdumps : codec.dumps (document entries) with
      | false => exact iff_of_true (fun _ _ ↦ rfl) fun h ↦ absurd h Bool.false_ne_true
      | true =>
          rw [if_pos rfl, imp_iff_right rfl]
          cases fault with
          | none =>
              dsimp only [writeText]
              rw [← finish_ok_iff]
              constructor
              · intro h
                by_cases hok : ∀ f, finish codec r shown entries ≠ .error f
                · exact .inl hok
                · push Not at hok
                  obtain ⟨f, hf⟩ := hok
                  exact .inr (h f hf).symm
              · rintro (hok | hsame) f hf
                · exact absurd hf (hok f)
                · exact hsame.symm
          | open_failed exc => exact iff_of_true (fun _ _ ↦ rfl) trivial
          | write_failed n exc =>
              exact ⟨fun h ↦ (h _ rfl).symm, fun h _ _ ↦ h.symm⟩

/-! ## An emptied file -/

/-- Every string is well-formed, and nothing is nested too deeply. -/
def wellFormed : Codec := ⟨fun _ ↦ true, fun _ ↦ true, fun _ ↦ true, fun _ ↦ ""⟩

/-- The registry of one middleware. -/
def oneMiddleware : List Entry := [Dict.ofList [("id", .str "a"), ("type", .str "middleware"),
  ("name", .str "A"), ("host", .str "10.0.0.1"), ("port", .int 5020), ("description", .str "")]]

/-- Reading a file that holds this registry, or is missing, or has nothing in it that
`json.loads` could take for a value. -/
def readOneMiddleware : Disk → ConfigFile
  | none => .missing
  | some bytes =>
      if bytes = fileBytes defaults oneMiddleware then dumped oneMiddleware
      else .malformed "Expecting value: line 1 column 1 (char 0)"

/-- A delete whose write fails at the first byte is answered with a 500, and the file that
could be loaded before it cannot be loaded any more. -/
theorem failed_delete_empties :
    loadConfig defaults (readOneMiddleware (some (fileBytes defaults oneMiddleware))) =
      .ok oneMiddleware ∧
    (answer defaults wellFormed readOneMiddleware (.delete "a")
      (.write_failed 0 "No space left on device") .null
      (some (fileBytes defaults oneMiddleware))).1 =
        .error (.http 500 "write config: No space left on device (is the volume rw?)") ∧
    (answer defaults wellFormed readOneMiddleware (.delete "a")
      (.write_failed 0 "No space left on device") .null
      (some (fileBytes defaults oneMiddleware))).2 ≠ some (fileBytes defaults oneMiddleware) ∧
    loadConfig defaults (readOneMiddleware (answer defaults wellFormed readOneMiddleware
      (.delete "a") (.write_failed 0 "No space left on device") .null
      (some (fileBytes defaults oneMiddleware))).2) =
        .error "nodes config invalid JSON: Expecting value: line 1 column 1 (char 0)" := by
  refine ⟨?_, ?_, ?_, ?_⟩
  · simp only [readOneMiddleware, if_pos]
    rfl
  · rfl
  · decide +kernel
  · rfl

end SensorFusion.Nodes
