import SensorFusion.Cot.Convert

/-!
# The bridge

`handle_client` takes the frames of one connection in turn.  Between two reads nothing
else runs, so a frame is one step: it is parsed, converted and sent, and counted.  An
exception other than those that are caught ends the connection, with all the frames that
were still to come on it.
-/

namespace SensorFusion.Cot

open Proto (Message)

/-- `_env_float` of an environment variable. -/
def envFloat (v : Option Text) : Option PyFloat :=
  let v := Text.strip (v.getD [])
  if v = [] then none else Text.float? v

/-- The fallback position of the environment. -/
def fallbackOf (lat lon alt : Option Text) : Fallback :=
  ⟨envFloat lat, envFloat lon, some ((envFloat alt).getD (.fin 0))⟩

/-- `_stats`. -/
structure Stats where
  frames_in : ℕ
  cot_out : ℕ
  skipped_no_position : ℕ
  skipped_no_mapping : ℕ
  send_errors : ℕ
deriving DecidableEq, Repr

/-- What the world answers while a frame is handled: the time, and whether there is a
socket and then whether `sendto` succeeds. -/
structure Answer where
  now : ℕ
  socket : Except String (Except String Unit)

/-- How a message ends that ends well. -/
inductive Handled where
  | skipped_no_position
  | skipped_no_mapping
  | sent (xml : List UInt8)
  | send_error (xml : List UInt8)
deriving DecidableEq

/-- An exception that leaves `_convert_and_send`. -/
inductive Raised where
  | undeclared (e : Undeclared)
  | socket (exc : String)
deriving DecidableEq

/-- The contents that have a mapping. -/
def MAPPED : List String := ["registration", "status_report", "detection_report", "alert"]

/-- `_convert_and_send`. -/
def convertAndSend (fb : Fallback) (m : Message) (ans : Answer) (stats : Stats) :
    Stats × Except Raised Handled :=
  match convert fb ans.now m with
  | .error e => (stats, .error (.undeclared e))
  | .ok none =>
      if (Sapient.content m).any fun c ↦ c ∈ MAPPED then
        ({ stats with skipped_no_position := stats.skipped_no_position + 1 },
          .ok .skipped_no_position)
      else
        ({ stats with skipped_no_mapping := stats.skipped_no_mapping + 1 },
          .ok .skipped_no_mapping)
  | .ok (some xml) =>
      match ans.socket with
      | .error exc => (stats, .error (.socket exc))
      | .ok (.ok ()) => ({ stats with cot_out := stats.cot_out + 1 }, .ok (.sent xml))
      | .ok (.error _) =>
          ({ stats with send_errors := stats.send_errors + 1 }, .ok (.send_error xml))

/-- `handle_client` over the frames that `read_frames` yields: the messages that are
handed to `_convert_and_send`, each with how it ended. -/
def handleClient (parse : List UInt8 → Option Message) (fb : Fallback) :
    Stats → List (List UInt8 × Answer) → Stats × List (Message × Except Raised Handled)
  | stats, [] => (stats, [])
  | stats, (payload, ans) :: frames =>
      let stats := { stats with frames_in := stats.frames_in + 1 }
      match parse payload with
      | none => handleClient parse fb stats frames
      | some m =>
          match convertAndSend fb m ans stats with
          | (stats, .error e) => (stats, [(m, .error e)])
          | (stats, .ok h) =>
              let rest := handleClient parse fb stats frames
              (rest.1, (m, .ok h) :: rest.2)

/-! ## Delivery -/

/-- Every message that can be parsed is handed over once, in order, and ends in an
attempt to send or a skip. -/
def Delivered (parse : List UInt8 → Option Message) (frames : List (List UInt8 × Answer))
    (log : List (Message × Except Raised Handled)) : Prop :=
  log.map Prod.fst = frames.filterMap (fun f ↦ parse f.1) ∧ ∀ x ∈ log, ∃ h, x.2 = .ok h

/-- A frame does no harm: should it be a message with a position, then its numbers are
declared, and there is a socket to send it with. -/
def Harmless (parse : List UInt8 → Option Message) (fb : Fallback) (f : List UInt8 × Answer) :
    Prop :=
  ∀ m, parse f.1 = some m → Positioned fb m → Named m ∧ ∃ sendto, f.2.socket = .ok sendto

/-- A message ends well exactly when its frame does no harm. -/
theorem convertAndSend_ok_iff (fb : Fallback) (m : Message) (ans : Answer) (stats : Stats) :
    (∃ h, (convertAndSend fb m ans stats).2 = .ok h) ↔
      (Positioned fb m → Named m ∧ ∃ sendto, ans.socket = .ok sendto) := by
  have hok := convert_ok_iff fb ans.now m
  unfold convertAndSend
  cases hconv : convert fb ans.now m with
  | error e =>
      refine iff_of_false (fun ⟨h, heq⟩ ↦ nomatch heq) fun hharm ↦ ?_
      obtain ⟨r, hr⟩ := hok.mpr fun hpos ↦ (hharm hpos).1
      rw [hconv] at hr
      cases hr
  | ok r =>
      cases r with
      | none =>
          refine iff_of_true ?_ fun hpos ↦ absurd hconv (convert_ne_none hpos)
          dsimp only
          split <;> exact ⟨_, rfl⟩
      | some xml =>
          have hpos := positioned_of_convert hconv
          have hnamed := hok.mp ⟨_, hconv⟩ hpos
          dsimp only
          cases hsock : ans.socket with
          | error exc =>
              refine iff_of_false (fun ⟨h, heq⟩ ↦ nomatch heq) fun hharm ↦ ?_
              obtain ⟨-, sendto, heq⟩ := hharm hpos
              cases heq
          | ok sendto =>
              refine iff_of_true ?_ fun _ ↦ ⟨hnamed, sendto, rfl⟩
              cases sendto <;> exact ⟨_, rfl⟩

/-- Every message of a connection is handled if and only if no frame does harm. -/
theorem delivered_iff_harmless (parse : List UInt8 → Option Message) (fb : Fallback) (stats : Stats)
    (frames : List (List UInt8 × Answer)) :
    Delivered parse frames (handleClient parse fb stats frames).2 ↔
      ∀ f ∈ frames, Harmless parse fb f := by
  induction frames generalizing stats with
  | nil => exact iff_of_true ⟨rfl, fun _ hx ↦ nomatch hx⟩ fun _ hf ↦ nomatch hf
  | cons f frames ih =>
      obtain ⟨payload, ans⟩ := f
      rw [List.forall_mem_cons, handleClient]
      dsimp only
      cases hparse : parse payload with
      | none =>
          have hf : Harmless parse fb (payload, ans) := fun m hm ↦ by
            rw [show parse (payload, ans).1 = none from hparse] at hm
            cases hm
          have hskip : ((payload, ans) :: frames).filterMap (fun f ↦ parse f.1) =
              frames.filterMap fun f ↦ parse f.1 := List.filterMap_cons_none hparse
          rw [Delivered, hskip]
          exact (ih _).trans (and_iff_right hf).symm
      | some m =>
          have hf := convertAndSend_ok_iff fb m ans { stats with frames_in := stats.frames_in + 1 }
          have hharm : Harmless parse fb (payload, ans) ↔
              (Positioned fb m → Named m ∧ ∃ sendto, ans.socket = .ok sendto) := by
            constructor
            · intro h hpos
              exact h m hparse hpos
            · intro h m' hm' hpos
              cases hparse.symm.trans hm'
              exact h hpos
          have hcons : ((payload, ans) :: frames).filterMap (fun f ↦ parse f.1) =
              m :: frames.filterMap fun f ↦ parse f.1 := List.filterMap_cons_some hparse
          rw [hharm, ← hf, Delivered, hcons]
          dsimp only
          rcases hsend :
            convertAndSend fb m ans { stats with frames_in := stats.frames_in + 1 } with
            ⟨stats', e | h⟩
          · -- the exception is the last thing on the connection
            refine iff_of_false ?_ fun h ↦ ?_
            · rintro ⟨-, hall⟩
              obtain ⟨h, heq⟩ := hall _ List.mem_cons_self
              cases heq
            · obtain ⟨h, heq⟩ := h.1
              cases heq
          · rw [← ih stats', Delivered, List.map_cons, List.cons.injEq, List.forall_mem_cons]
            constructor
            · rintro ⟨⟨-, hmap⟩, -, hall⟩
              exact ⟨⟨h, rfl⟩, hmap, hall⟩
            · rintro ⟨-, hmap, hall⟩
              exact ⟨⟨rfl, hmap⟩, ⟨h, rfl⟩, hall⟩

/-- A registration of a node type that the schema does not declare. -/
def unknownNodeType : Message :=
  [("registration", .msg [("node_definition", .msg [("node_type", .enum 99)])])]

/-- A parser that is only ever shown that registration and an empty status report. -/
def parseTwo (payload : List UInt8) : Option Message :=
  if payload = [0x22, 4, 0x0A, 2, 8, 99] then some unknownNodeType
  else if payload = [0x32, 0] then some [("status_report", .msg [])]
  else none

/-- With a fallback position, the registration ends the connection, and the status report
after it is lost. -/
theorem unknown_node_type_drops :
    handleClient parseTwo (fallbackOf (some "-27.5".toList) (some "153".toList) none)
      ⟨0, 0, 0, 0, 0⟩
      [([0x22, 4, 0x0A, 2, 8, 99], ⟨0, .ok (.ok ())⟩), ([0x32, 0], ⟨0, .ok (.ok ())⟩)] =
      (⟨1, 0, 0, 0, 0⟩,
        [(unknownNodeType, .error (.undeclared ⟨"NodeType", 99⟩))]) ∧
    ¬ Delivered parseTwo
      [([0x22, 4, 0x0A, 2, 8, 99], ⟨0, .ok (.ok ())⟩), ([0x32, 0], ⟨0, .ok (.ok ())⟩)]
      (handleClient parseTwo (fallbackOf (some "-27.5".toList) (some "153".toList) none)
        ⟨0, 0, 0, 0, 0⟩
        [([0x22, 4, 0x0A, 2, 8, 99], ⟨0, .ok (.ok ())⟩), ([0x32, 0], ⟨0, .ok (.ok ())⟩)]).2 := by
  have hrun : handleClient parseTwo (fallbackOf (some "-27.5".toList) (some "153".toList) none)
      ⟨0, 0, 0, 0, 0⟩
      [([0x22, 4, 0x0A, 2, 8, 99], ⟨0, .ok (.ok ())⟩), ([0x32, 0], ⟨0, .ok (.ok ())⟩)] =
      (⟨1, 0, 0, 0, 0⟩,
        [(unknownNodeType, .error (.undeclared ⟨"NodeType", 99⟩))]) := by rfl
  refine ⟨hrun, ?_⟩
  rw [hrun]
  rintro ⟨-, hall⟩
  obtain ⟨h, heq⟩ := hall _ List.mem_cons_self
  cases heq

end SensorFusion.Cot
