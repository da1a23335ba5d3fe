import SensorFusion.Nodes.Save

/-!
# Whole requests

`serve` ends where the refresh round of a request begins.  Here a request goes on to its answer.
The round raises for an entry whose type has no hash, whichever entry the request is about, and
a response may be one that cannot be rendered; the file has been written by then, and the answer
is a bare 500.  And a document may be nested too deeply for `json.dumps`, before anything is
written.  The map knows no such answer: a request is a step of it when it is clean, its document
can be written, and what follows its save ends well.
-/

namespace SensorFusion.Nodes

/-- A request to its end, when its write succeeds: its answer, and the file afterwards.  With it
comes what `_STATE` has of its node when the round is over. -/
def complete (cfg : Settings) (codec : Codec) (file : ConfigFile) (x : Request × Json) :
    Except Failure Unit × ConfigFile :=
  match x.1.entries cfg file with
  | .error f => (.error f, file)
  | .ok entries =>
      if codec.dumps (document entries) then
        (finish codec x.1 x.2 entries, (saveConfig entries .done).2)
      else (.error (.exception (codec.error (document entries))), file)

variable {cfg : Settings} {codec : Codec} {file : ConfigFile} {es : List Entry} {reg : Registry}
  {x : Request × Json}

/-- This is the request on the bytes of the file, when a document that was written reads back. -/
theorem answer_eq_complete {read : Disk → ConfigFile}
    (hread : ∀ es, read (some (fileBytes cfg es)) = dumped es) (disk : Disk) :
    (answer cfg codec read x.1 .none x.2 disk).1 = (complete cfg codec (read disk) x).1 ∧
      read (answer cfg codec read x.1 .none x.2 disk).2 = (complete cfg codec (read disk) x).2 := by
  unfold answer complete
  cases x.1.entries cfg (read disk) with
  | error f => exact ⟨rfl, rfl⟩
  | ok entries =>
      cases hdumps : codec.dumps (document entries) with
      | false => simp only [hdumps, Bool.false_eq_true, if_false, and_self]
      | true =>
          simp only [hdumps, if_true]
          exact ⟨rfl, hread entries⟩

theorem complete_of_error {f : Failure} (h : x.1.entries cfg file = .error f) :
    complete cfg codec file x = serve cfg x.1 .done file := by
  rw [serve_error h, complete, h]

theorem complete_of_ok {entries : List Entry} (h : x.1.entries cfg file = .ok entries)
    (hdumps : codec.dumps (document entries) = true) :
    complete cfg codec file x = (finish codec x.1 x.2 entries, (serve cfg x.1 .done file).2) := by
  rw [serve_ok h, complete, h]
  exact if_pos hdumps

theorem complete_of_not_dumps {entries : List Entry} (h : x.1.entries cfg file = .ok entries)
    (hdumps : ¬ codec.dumps (document entries) = true) :
    complete cfg codec file x = (.error (.exception (codec.error (document entries))), file) := by
  rw [complete, h]
  exact if_neg hdumps

/-- The request does not meet the membership test, the document it saves is not nested too
deeply, and what follows its save ends well. -/
structure RunsWell (cfg : Settings) (codec : Codec) (file : ConfigFile) (x : Request × Json) :
    Prop where
  clean : Clean cfg file x.1
  saves : ∀ entries, x.1.entries cfg file = .ok entries → codec.dumps (document entries) = true
  ends : ∀ entries, x.1.entries cfg file = .ok entries → EndsWell codec x.1 x.2 entries

/-- To the map a request that runs well looks as it does up to its round. -/
theorem RunsWell.complete_eq (h : RunsWell cfg codec file x) :
    complete cfg codec file x = serve cfg x.1 .done file := by
  cases hentries : x.1.entries cfg file with
  | error f => exact complete_of_error hentries
  | ok entries =>
      rw [complete_of_ok hentries (h.saves entries hentries),
        finish_eq_ok_iff.mpr (h.ends entries hentries), serve_ok hentries]

/-- What follows a save fails with a 500. -/
theorem finish_cases (codec : Codec) (r : Request) (shown : Json) (entries : List Entry) :
    finish codec r shown entries = .ok () ∨
      ∃ text, finish codec r shown entries = .error (.exception text) := by
  unfold finish
  cases refreshError entries with
  | some exc => exact .inr ⟨exc, rfl⟩
  | none =>
      cases renderError codec (r.response shown) with
      | some exc => exact .inr ⟨exc, rfl⟩
      | none => exact .inl rfl

/-- A request that answers as the map does runs well. -/
theorem runsWell_of_mapStep (hload : loadConfig cfg file = .ok es) (hm : Models es reg)
    {reg' : Registry} (hstep : MapStep reg x.1 (outcome (complete cfg codec file x).1) reg') :
    RunsWell cfg codec file x := by
  cases hentries : x.1.entries cfg file with
  | error f =>
      rw [complete_of_error hentries] at hstep
      have hturned (entries) (h : x.1.entries cfg file = .ok entries) : False := by
        cases hentries.symm.trans h
      exact ⟨clean_of_mapStep hload hm hstep, fun es h ↦ (hturned es h).elim,
        fun es h ↦ (hturned es h).elim⟩
  | ok entries =>
      have hdumps : codec.dumps (document entries) = true := by
        by_contra hnot
        rw [complete_of_not_dumps hentries hnot] at hstep
        exact hstep.status_ne
      refine ⟨?_, fun entries' h ↦ ?_, fun entries' h ↦ ?_⟩
      · by_contra hclean
        obtain ⟨text, herror⟩ := entries_of_not_clean hload hm hclean
        cases hentries.symm.trans herror
      · cases hentries.symm.trans h
        exact hdumps
      · cases hentries.symm.trans h
        rw [complete_of_ok hentries hdumps] at hstep
        rcases finish_cases codec x.1 x.2 entries with hok | ⟨text, herror⟩
        · exact finish_eq_ok_iff.mp hok
        · rw [herror] at hstep
          exact hstep.status_ne.elim

/-! ## Every run of requests -/

/-- The handlers as a machine over the file, when no write fails. -/
def handle (cfg : Settings) (codec : Codec) : Machine ConfigFile (Request × Json) :=
  fun file x ↦ some (complete cfg codec file x).2

/-- A run of requests refines the ordered map: there is a run of the map with the
same answers, a request that is turned away leaves the file as it is, and the file
holds the map all along. -/
def Refines (cfg : Settings) (codec : Codec) :
    ConfigFile → Registry → List (Request × Json) → Prop
  | file, reg, [] => Represents cfg file reg
  | file, reg, x :: xs => Represents cfg file reg ∧ ∃ reg',
      MapStep reg x.1 (outcome (complete cfg codec file x).1) reg' ∧
      ((outcome (complete cfg codec file x).1).isSome →
        (complete cfg codec file x).2 = file) ∧
      Refines cfg codec (complete cfg codec file x).2 reg' xs

theorem Refines.represents {xs : List (Request × Json)} (h : Refines cfg codec file reg xs) :
    Represents cfg file reg := by
  cases xs with
  | nil => exact h
  | cons x xs => exact h.1

theorem refines_iff_meets (h : Represents cfg file reg) (xs : List (Request × Json)) :
    Refines cfg codec file reg xs ↔
      (handle cfg codec).Meets (RunsWell cfg codec) file xs := by
  induction xs generalizing file reg with
  | nil => exact iff_of_true h trivial
  | cons x xs ih =>
      obtain ⟨es, hload, hm⟩ := h
      rw [Machine.meets_cons (m := handle cfg codec) rfl]
      constructor
      · rintro ⟨-, reg', hstep, -, hrest⟩
        exact ⟨runsWell_of_mapStep hload hm hstep, (ih hrest.represents).mp hrest⟩
      · rintro ⟨hwell, hrest⟩
        obtain ⟨reg', hstep, hsame, hrep⟩ := steps_of_clean hload hm hwell.clean
        rw [← hwell.complete_eq] at hstep hsame hrep
        exact ⟨⟨es, hload, hm⟩, reg', hstep, hsame, (ih hrep).mpr hrest⟩

/-- From a loadable file, the handlers refine the ordered map in exactly the runs whose requests
all run well: no patch gives a field of an entry whose type is a list or an object, and no
request that gets to its save leaves such an entry anywhere in the file, has a document that is
nested too deeply, or shows what cannot be rendered. -/
theorem handlers_refine_map (cfg : Settings) (codec : Codec) {file : ConfigFile}
    {es : List Entry} (h : loadConfig cfg file = .ok es) (xs : List (Request × Json)) :
    Refines cfg codec file (Registry.ofEntries (loadConfig_spec h).1) xs ↔
      (handle cfg codec).Meets (RunsWell cfg codec) file xs :=
  refines_iff_meets ⟨es, h, models_ofEntries h⟩ xs

/-- A patch of the host alone. -/
def rehost (host : Str 1 253) : NodePatch :=
  { NodeFields.none with name := none, host := some host }

/-- A second node is created and the first one patched; the second cannot be created again, a
third one is not there to be patched, and the first one is deleted. -/
def registering : List (Request × Json) :=
  [(.create secondNode, .obj [("id", .str "m")]),
   (.patch "a" (rehost ⟨"10.0.0.9", by decide⟩), .obj [("id", .str "a")]),
   (.create secondNode, .null), (.patch "c" (rehost ⟨"10.0.0.9", by decide⟩), .null),
   (.delete "a", .null)]

theorem registering_runsWell :
    (handle defaults wellFormed).Meets (RunsWell defaults wellFormed)
      (oneNode (.str "edge-node")) registering := by
  have hturned {x : Request × Json} {file : ConfigFile} {f : Failure}
      (h : x.1.entries defaults file = .error f) (hclean : Clean defaults file x.1) :
      RunsWell defaults wellFormed file x :=
    ⟨hclean, fun _ _ ↦ rfl, fun es hes ↦ by rw [h] at hes; cases hes⟩
  refine (Machine.meets_cons rfl).mpr ⟨⟨trivial, fun _ _ ↦ rfl, fun es h ↦ ?_⟩,
    (Machine.meets_cons rfl).mpr ⟨⟨fun _ es h ↦ ?_, fun _ _ ↦ rfl, fun es h ↦ ?_⟩,
    (Machine.meets_cons rfl).mpr ⟨hturned rfl trivial,
    (Machine.meets_cons rfl).mpr ⟨hturned rfl fun _ es h ↦ ?_,
    (Machine.meets_cons rfl).mpr ⟨⟨trivial, fun _ _ ↦ rfl, fun es h ↦ ?_⟩, trivial⟩⟩⟩⟩⟩
  · cases h
    exact ⟨by decide, rfl, rfl, rfl⟩
  · cases h
    exact fun e he _ ↦ ne_none_of_hashable (by decide) e he
  · cases h
    exact ⟨by decide, rfl, rfl, rfl⟩
  · cases h
    exact fun e he _ ↦ ne_none_of_hashable (by decide) e he
  · cases h
    exact ⟨by decide, rfl, rfl, rfl⟩

theorem handlers_refine_map_registering :
    ∃ es, ∃ h : loadConfig defaults (oneNode (.str "edge-node")) = .ok es,
      Refines defaults wellFormed (oneNode (.str "edge-node"))
        (Registry.ofEntries (loadConfig_spec h).1) registering ∧
      (handle defaults wellFormed).outputs
        (fun file x ↦ [outcome (complete defaults wellFormed file x).1])
        (oneNode (.str "edge-node")) registering = [none, none, some 409, some 404, none] :=
  ⟨_, rfl, (handlers_refine_map defaults wellFormed rfl _).mpr registering_runsWell, rfl⟩

/-- Moving a node whose type is a list is answered with a 500, which the map never gives; and
beside such a node another one is created and still answered with a 500. -/
theorem patch_unhashable_type :
    ∃ es, ∃ h : loadConfig defaults (oneNode (.arr [])) = .ok es,
      (¬ Refines defaults wellFormed (oneNode (.arr []))
        (Registry.ofEntries (loadConfig_spec h).1)
        [(.patch "a" (rehost ⟨"10.0.0.9", by decide⟩), .null)]) ∧
      (¬ Refines defaults wellFormed (oneNode (.arr []))
        (Registry.ofEntries (loadConfig_spec h).1) [(.create secondNode, .null)]) ∧
      (complete defaults wellFormed (oneNode (.arr [])) (.create secondNode, .null)).2 ≠
        oneNode (.arr []) := by
  refine ⟨_, rfl, ?_, ?_, ?_⟩
  · rintro ⟨-, reg', hstep, -⟩
    exact hstep.status_ne
  · rintro ⟨-, reg', hstep, -⟩
    exact hstep.status_ne
  · intro h
    cases h

end SensorFusion.Nodes
