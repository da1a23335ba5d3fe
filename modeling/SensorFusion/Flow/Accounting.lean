import SensorFusion.Flow.Run

/-!
# The books of a flow

A result has three accounts of one run: the transcript, a record for each step, and the
overall error.  They are written at different points of the loop, and `Accounting` says
that they agree.

The argument keeps the books open during the run.  `Books` relates the transcript and
the overall error to the records written so far; each point of the loop has its own list
of records, in which the step being played already counts with what the loop is about to
write of it.  That is how a message can be stamped before it is written: from the stamp
until the write is done the step is booked as sent.  When the write fails instead the
books do not balance, and nothing that follows sets them right.
-/

namespace SensorFusion.Flow

open Proto (Message)

variable {D : Type} {pb : Protobuf D} {p : Params}

/-! ## What the result should say -/

/-- How many entries of the transcript have a direction and a step. -/
def tally (d : Direction) (i : ℕ) (transcript : List (Entry D)) : ℕ :=
  transcript.countP fun e ↦ e.direction = d ∧ e.step = i

/-- The three accounts in a result agree; `refused` tells whether the connection attempt
failed. -/
structure Accounting (p : Params) (refused : Bool) (r : Result D) : Prop where
  length : r.steps.length = p.steps.length
  steps : ∀ (i : ℕ) (step : Step) (sr : StepResult), p.steps[i]? = some step →
    r.steps[i]? = some sr →
      sr.index = i ∧ sr.template = step.template_name ∧ sr.wait_for = step.wait_for
  reached : ∃ n, ∀ (i : ℕ) (sr : StepResult), r.steps[i]? = some sr →
    (sr.skipped = false ↔ i < n)
  stops : ∀ (i j : ℕ) (si sj : StepResult), i < j → r.steps[i]? = some si →
    r.steps[j]? = some sj → si.error ≠ none → sj.skipped = true
  overall : r.error ≠ none ↔ refused = true ∨ ∃ sr ∈ r.steps, sr.error ≠ none
  sent : ∀ (i : ℕ) (sr : StepResult), r.steps[i]? = some sr →
    tally .sent i r.transcript = if sr.sent = true then 1 else 0
  recv : ∀ (i : ℕ) (sr : StepResult), r.steps[i]? = some sr →
    tally .recv i r.transcript = sr.recv_count

/-! ## Balanced transcripts -/

/-- The sent entries that a record accounts for. -/
def sentOf (r : Option Record) : ℕ := if r.any Record.sent then 1 else 0

/-- The received entries that a record accounts for. -/
def recvOf (r : Option Record) : ℕ := (r.map Record.recv_count).getD 0

/-- Every entry of the transcript is accounted for by the record of its step, and the
other way round. -/
def Balanced (transcript : List (Entry D)) (recs : List Record) : Prop :=
  ∀ i, tally .sent i transcript = sentOf recs[i]? ∧ tally .recv i transcript = recvOf recs[i]?

theorem balanced_nil : Balanced ([] : List (Entry D)) [] := fun _ ↦ ⟨rfl, rfl⟩

theorem tally_append (d : Direction) (i : ℕ) (transcript : List (Entry D)) (e : Entry D) :
    tally d i (transcript ++ [e]) =
      tally d i transcript + if e.direction = d ∧ e.step = i then 1 else 0 := by
  rw [tally, List.countP_append, List.countP_singleton]
  simp [tally]

theorem getElem?_snoc_self (recs : List Record) (r : Record) :
    (recs ++ [r])[recs.length]? = some r := List.getElem?_concat_length

theorem getElem?_snoc_ne (recs : List Record) (r : Record) {i : ℕ} (h : i ≠ recs.length) :
    (recs ++ [r])[i]? = recs[i]? := by
  rcases Nat.lt_or_gt_of_ne h with h | h
  · exact List.getElem?_append_left h
  · rw [List.getElem?_eq_none (by rw [List.length_append]; exact h), List.getElem?_eq_none h.le]

namespace Balanced

variable {transcript : List (Entry D)} {recs : List Record} {r r' : Record}

/-- A record that accounts for nothing can be added. -/
theorem push (h : Balanced transcript recs) (hsent : r.sent = false) (hrecv : r.recv_count = 0) :
    Balanced transcript (recs ++ [r]) := by
  intro i
  obtain ⟨hs, hr⟩ := h i
  rcases eq_or_ne i recs.length with rfl | hne
  · rw [getElem?_snoc_self, hs, hr, List.getElem?_eq_none le_rfl]
    exact ⟨by simp [sentOf, hsent], by simp [recvOf, hrecv]⟩
  · rw [getElem?_snoc_ne _ _ hne]
    exact ⟨hs, hr⟩

/-- What a record says besides its two counts does not matter. -/
theorem congr (h : Balanced transcript (recs ++ [r])) (hsent : r'.sent = r.sent)
    (hrecv : r'.recv_count = r.recv_count) : Balanced transcript (recs ++ [r']) := by
  intro i
  have hi := h i
  rcases eq_or_ne i recs.length with rfl | hne
  · rw [getElem?_snoc_self] at hi ⊢
    simpa [sentOf, recvOf, hsent, hrecv] using hi
  · rwa [getElem?_snoc_ne _ _ hne] at hi ⊢

/-- Stamp the message that a step sends. -/
theorem stamp_sent (h : Balanced transcript (recs ++ [r])) (hsent : r.sent = false)
    {e : Entry D} (hdir : e.direction = .sent) (hstep : e.step = recs.length) :
    Balanced (transcript ++ [e]) (recs ++ [{ r with sent := true }]) := by
  intro i
  have hi := h i
  rw [tally_append, tally_append, hdir, hstep]
  rcases eq_or_ne i recs.length with rfl | hne
  · rw [getElem?_snoc_self] at hi ⊢
    simpa [sentOf, recvOf, hsent] using hi
  · rw [getElem?_snoc_ne _ _ hne] at hi ⊢
    simpa [hne.symm] using hi

/-- Stamp a frame that a step receives. -/
theorem stamp_recv (h : Balanced transcript (recs ++ [r])) {e : Entry D}
    (hdir : e.direction = .recv) (hstep : e.step = recs.length) :
    Balanced (transcript ++ [e]) (recs ++ [{ r with recv_count := r.recv_count + 1 }]) := by
  intro i
  have hi := h i
  rw [tally_append, tally_append, hdir, hstep]
  rcases eq_or_ne i recs.length with rfl | hne
  · rw [getElem?_snoc_self] at hi ⊢
    simpa [sentOf, recvOf] using hi
  · rw [getElem?_snoc_ne _ _ hne] at hi ⊢
    simpa [hne.symm] using hi

end Balanced

/-! ## Open books -/

/-- A record is about step number `i`. -/
def Reports (p : Params) (i : ℕ) (r : Record) : Prop :=
  r.index = i ∧ ∃ step, p.steps[i]? = some step ∧
    r.template = step.template_name ∧ r.wait_for = step.wait_for

/-- The transcript and the overall error agree with the records; only the last record
may have an error. -/
structure Books (p : Params) (refused : Bool) (overall : Option String)
    (transcript : List (Entry D)) (recs : List Record) : Prop where
  reports : ∀ i r, recs[i]? = some r → Reports p i r
  balanced : Balanced transcript recs
  settled : ∀ r ∈ recs.dropLast, r.error = none
  overall : overall ≠ none ↔ refused = true ∨ ∃ r ∈ recs, r.error ≠ none

namespace Books

variable {transcript : List (Entry D)} {recs : List Record} {r r' : Record}

/-- There are no books without a step to report on. -/
theorem length_le {refused : Bool} {overall : Option String}
    (h : Books p refused overall transcript recs) : recs.length ≤ p.steps.length := by
  rcases Nat.eq_zero_or_pos recs.length with hz | hpos
  · omega
  · obtain ⟨r, hr⟩ : ∃ r, recs[recs.length - 1]? = some r :=
      ⟨_, List.getElem?_eq_getElem (by omega)⟩
    obtain ⟨-, step, hstep, -⟩ := h.reports _ r hr
    have := (List.getElem?_eq_some_iff.mp hstep).1
    omega

/-- While all goes well no record has an error. -/
theorem clean (h : Books p false none transcript recs) : ∀ r ∈ recs, r.error = none := by
  intro r hr
  by_contra herr
  exact h.overall.mpr (.inr ⟨r, hr, herr⟩) rfl

/-- The record of the step being played has the step's number. -/
theorem index {refused : Bool} {overall : Option String}
    (h : Books p refused overall transcript (recs ++ [r])) : r.index = recs.length :=
  (h.reports recs.length r (getElem?_snoc_self recs r)).1

/-- Books on which all goes well. -/
theorem of_clean (hreports : ∀ i r, recs[i]? = some r → Reports p i r)
    (hbalanced : Balanced transcript recs) (hclean : ∀ r ∈ recs, r.error = none) :
    Books p false none transcript recs where
  reports := hreports
  balanced := hbalanced
  settled := fun r hr ↦ hclean r (List.mem_of_mem_dropLast hr)
  overall := by
    constructor
    · intro h
      exact absurd rfl h
    · rintro (h | ⟨r, hr, herr⟩)
      · cases h
      · exact absurd (hclean r hr) herr

/-- Open the record of the next step. -/
theorem push (h : Books p false none transcript recs) {step : Step}
    (hstep : p.steps[recs.length]? = some step) :
    Books p false none transcript (recs ++ [Record.fresh recs.length step]) := by
  refine of_clean ?_ (h.balanced.push rfl rfl) ?_
  · intro i r hr
    rcases eq_or_ne i recs.length with rfl | hne
    · rw [getElem?_snoc_self] at hr
      cases hr
      exact ⟨rfl, step, hstep, rfl, rfl⟩
    · rw [getElem?_snoc_ne _ _ hne] at hr
      exact h.reports i r hr
  · intro r hr
    rcases List.mem_append.mp hr with hr | hr
    · exact h.clean r hr
    · rw [List.mem_singleton.mp hr]
      rfl

/-- A record that keeps the step's number, template and awaited content still reports
on the step. -/
theorem reports_snoc {refused : Bool} {overall : Option String}
    (h : Books p refused overall transcript (recs ++ [r])) (hindex : r'.index = r.index)
    (htemplate : r'.template = r.template) (hwait : r'.wait_for = r.wait_for) (i : ℕ) (x : Record)
    (hx : (recs ++ [r'])[i]? = some x) : Reports p i x := by
  rcases eq_or_ne i recs.length with rfl | hne
  · rw [getElem?_snoc_self] at hx
    cases hx
    obtain ⟨hr, step, hstep, ht, hw⟩ := h.reports _ r (getElem?_snoc_self recs r)
    exact ⟨hindex.trans hr, step, hstep, htemplate.trans ht, hwait.trans hw⟩
  · rw [getElem?_snoc_ne _ _ hne] at hx
    exact h.reports i x (by rwa [getElem?_snoc_ne _ _ hne])

/-- Change the record of the step being played, and the transcript with it. -/
theorem amend (h : Books p false none transcript (recs ++ [r])) {transcript' : List (Entry D)}
    (hindex : r'.index = r.index) (htemplate : r'.template = r.template)
    (hwait : r'.wait_for = r.wait_for) (herror : r'.error = r.error)
    (hbalanced : Balanced transcript' (recs ++ [r'])) :
    Books p false none transcript' (recs ++ [r']) := by
  refine of_clean ?_ hbalanced ?_
  · exact reports_snoc h hindex htemplate hwait
  · intro x hx
    rcases List.mem_append.mp hx with hx | hx
    · exact h.clean x (List.mem_append_left _ hx)
    · rw [List.mem_singleton.mp hx, herror]
      exact h.clean r (List.mem_append_right _ (List.mem_singleton.mpr rfl))

/-- End the run with an error in the step being played. -/
theorem fail (h : Books p false none transcript (recs ++ [r])) (error overall : String) :
    Books p false (some overall) transcript (recs ++ [{ r with error := some error }]) where
  reports := reports_snoc h rfl rfl rfl
  balanced := h.balanced.congr rfl rfl
  settled := by
    intro x hx
    rw [List.dropLast_concat] at hx
    exact h.clean x (List.mem_append_left _ hx)
  overall := by
    constructor
    · intro _
      exact .inr ⟨_, List.mem_append_right _ (List.mem_singleton.mpr rfl), Option.some_ne_none _⟩
    · intro _
      exact Option.some_ne_none _

end Books

/-! ## Closing the books -/

theorem shapes_getElem? (results : List Record) (steps : List Step) (i j : ℕ) :
    (shapes results i steps)[j]? = steps[j]?.map fun step ↦ shape (i + j) step results[i + j]? := by
  induction steps generalizing i j with
  | nil => rfl
  | cons step steps ih =>
      cases j with
      | zero => rfl
      | succ j =>
          rw [shapes, List.getElem?_cons_succ, List.getElem?_cons_succ, ih,
            Nat.add_right_comm i 1 j, Nat.add_assoc i j 1]

theorem shapes_length (results : List Record) (steps : List Step) (i : ℕ) :
    (shapes results i steps).length = steps.length := by
  induction steps generalizing i with
  | nil => rfl
  | cons step steps ih => rw [shapes, List.length_cons, List.length_cons, ih]

/-- A step of the result comes from a step of the request and the record of it, if there
is one. -/
theorem finalise_step {transcript : List (Entry D)} {recs : List Record} {overall : Option String}
    {end_utc : String} {i : ℕ} {sr : StepResult}
    (h : (finalise p transcript recs overall end_utc).steps[i]? = some sr) :
    ∃ step, p.steps[i]? = some step ∧ sr = shape i step recs[i]? := by
  rw [finalise, shapes_getElem?, Nat.zero_add] at h
  obtain ⟨step, hstep, rfl⟩ := Option.map_eq_some_iff.mp h
  exact ⟨step, hstep, rfl⟩

/-- A step of the result is skipped when there is no record of it. -/
theorem shape_skipped (i : ℕ) (step : Step) (r : Option Record) :
    (shape i step r).skipped = r.isNone := by
  cases r <;> rfl

theorem shape_sent (i : ℕ) (step : Step) (r : Option Record) :
    (shape i step r).sent = r.any Record.sent := by
  cases r <;> rfl

theorem shape_recv_count (i : ℕ) (step : Step) (r : Option Record) :
    (shape i step r).recv_count = recvOf r := by
  cases r <;> rfl

theorem shape_error (i : ℕ) (step : Step) (r : Option Record) :
    (shape i step r).error = r.bind Record.error := by
  cases r <;> rfl

/-- Books that are in order close into a result that is in order. -/
theorem Books.finalise {refused : Bool} {overall : Option String} {transcript : List (Entry D)}
    {recs : List Record} (h : Books p refused overall transcript recs) (end_utc : String) :
    Accounting p refused (finalise p transcript recs overall end_utc) where
  length := shapes_length recs p.steps 0
  steps := by
    intro i step sr hstep hsr
    obtain ⟨step', hstep', rfl⟩ := finalise_step hsr
    cases hstep.symm.trans hstep'
    cases hr : recs[i]? with
    | none => exact ⟨rfl, rfl, rfl⟩
    | some r =>
        obtain ⟨hindex, step', hstep', htemplate, hwait⟩ := h.reports i r hr
        cases hstep.symm.trans hstep'
        exact ⟨hindex, htemplate, hwait⟩
  reached := by
    refine ⟨recs.length, fun i sr hsr ↦ ?_⟩
    obtain ⟨step, -, rfl⟩ := finalise_step hsr
    rw [shape_skipped]
    simp
  stops := by
    intro i j si sj hij hsi hsj herr
    obtain ⟨step, -, rfl⟩ := finalise_step hsi
    obtain ⟨step', -, rfl⟩ := finalise_step hsj
    rw [shape_skipped]
    -- a record with an error that has another one after it would not be the last
    by_contra hskip
    have hj : j < recs.length := by simpa using hskip
    obtain ⟨r, hr⟩ : ∃ r, recs[i]? = some r := ⟨_, List.getElem?_eq_getElem (hij.trans hj)⟩
    refine herr ?_
    rw [shape_error, hr]
    refine h.settled r (List.mem_of_getElem? (i := i) ?_)
    rw [List.getElem?_dropLast, if_pos (by omega), hr]
  overall := by
    rw [show (Flow.finalise p transcript recs overall end_utc).error = overall from rfl, h.overall]
    refine or_congr_right ⟨?_, ?_⟩
    · rintro ⟨r, hr, herr⟩
      obtain ⟨i, hi⟩ := List.mem_iff_getElem?.mp hr
      obtain ⟨-, step, hstep, -⟩ := h.reports i r hi
      refine ⟨shape i step recs[i]?, List.mem_of_getElem? (i := i) ?_, ?_⟩
      · rw [Flow.finalise, shapes_getElem?, Nat.zero_add, hstep, Option.map_some]
      · rw [shape_error, hi]
        exact herr
    · rintro ⟨sr, hsr, herr⟩
      obtain ⟨i, hi⟩ := List.mem_iff_getElem?.mp hsr
      obtain ⟨step, -, rfl⟩ := finalise_step hi
      rw [shape_error] at herr
      cases hr : recs[i]? with
      | none => rw [hr] at herr; exact absurd rfl herr
      | some r =>
          rw [hr] at herr
          exact ⟨r, List.mem_of_getElem? hr, herr⟩
  sent := by
    intro i sr hsr
    obtain ⟨step, -, rfl⟩ := finalise_step hsr
    rw [shape_sent]
    exact (h.balanced i).1
  recv := by
    intro i sr hsr
    obtain ⟨step, -, rfl⟩ := finalise_step hsr
    rw [shape_recv_count]
    exact (h.balanced i).2

/-! ## The run -/

/-- All has gone well so far, and `recs` are the records to be booked. -/
structure Going (p : Params) (t : Task D) (recs : List Record) : Prop where
  refused : t.refused = false
  overall : t.overall_error = none
  books : Books p false none t.transcript recs

/-- The books at each point of the main task.  While a message is being written its step
is booked as sent. -/
def Inv (p : Params) (t : Task D) : Prop :=
  match t.pc with
  | .connecting => t.results = [] ∧ Going p t []
  | .stepping idx => idx = t.results.length ∧ Going p t t.results
  | .sleeping | .rendering => t.record.sent = false ∧ Going p t (t.results ++ [t.record])
  | .flushing =>
      t.record.sent = false ∧ Going p t (t.results ++ [{ t.record with sent := true }])
  | .receiving _ _ | .waiting _ _ | .received | .ending => Going p t (t.results ++ [t.record])
  | .closing none => Books p t.refused t.overall_error t.transcript t.results
  | .closing (some _) | .raised _ => True
  | .returned r => Accounting p t.refused r

/-- No write fails: a message that is stamped can be framed, and neither `write` nor
`drain` raises. -/
def WriteSucceeds (pb : Protobuf D) (p : Params) : Label → Prop
  | .rendered (.message m) _ write =>
      (p.validate_before_send = true → Sapient.validate m = []) →
        (∃ decoded, pb.toDict m = .ok decoded) →
          (∃ b, Wire.encode (pb.serialize m) = .ok b) ∧ write = .ok ()
  | .flushed o _ => o = .ok ()
  | _ => True

theorem inv_start : Inv p (Task.start : Task D) :=
  ⟨rfl, rfl, rfl, Books.of_clean (by simp) balanced_nil (by simp)⟩

namespace Inv

variable {t : Task D}

/-- A step that fails with nothing in doubt closes the books in order. -/
theorem fail (h : Going p t (t.results ++ [t.record])) (error overall : String) :
    Inv p (t.fail error overall) := by
  show Books p t.refused _ t.transcript _
  rw [h.refused]
  exact h.books.fail error _

/-- A change of the current record that no account shows. -/
theorem amend (h : Going p t (t.results ++ [t.record])) {r : Record}
    (hindex : r.index = t.record.index) (htemplate : r.template = t.record.template)
    (hwait : r.wait_for = t.record.wait_for) (herror : r.error = t.record.error)
    (hsent : r.sent = t.record.sent) (hrecv : r.recv_count = t.record.recv_count) :
    Going p { t with record := r } (t.results ++ [r]) :=
  ⟨h.refused, h.overall,
    h.books.amend hindex htemplate hwait herror (h.books.balanced.congr hsent hrecv)⟩

theorem connect (h : Inv p t) (hpc : t.pc = .connecting) (o : Connect) (end_utc : String)
    (saved : Bool) : Inv p (t.connect p o end_utc saved) := by
  simp only [Inv, hpc] at h
  obtain ⟨hresults, hgoing⟩ := h
  rcases Task.connect_cases p t o end_utc saved with ⟨exc, heq⟩ | ⟨-, heq⟩ | ⟨exc, heq⟩
  · rw [heq]
    trivial
  · rw [heq]
    refine ⟨by rw [hresults]; rfl, hgoing.refused, hgoing.overall, ?_⟩
    rw [hresults]
    exact hgoing.books
  · rw [heq]
    refine Books.finalise ?_ end_utc
    rw [hresults]
    -- nothing was booked, and the error is the connection's
    exact { hgoing.books with overall := by simp }

theorem beginStep (h : Inv p t) {idx : ℕ} (hpc : t.pc = .stepping idx) {step : Step}
    (hstep : p.steps[idx]? = some step) (now : ℚ) : Inv p (t.beginStep idx step now) := by
  simp only [Inv, hpc] at h
  obtain ⟨rfl, hgoing⟩ := h
  have hpush : Going p (t.beginStep t.results.length step now)
      (t.results ++ [Record.fresh t.results.length step]) :=
    ⟨hgoing.refused, hgoing.overall, hgoing.books.push hstep⟩
  by_cases hgap : 0 < step.gap_before_s
  · have hpc : (t.beginStep t.results.length step now).pc = .sleeping := if_pos hgap
    simp only [Inv, hpc]
    exact ⟨rfl, hpush⟩
  · have hpc : (t.beginStep t.results.length step now).pc = .rendering := if_neg hgap
    simp only [Inv, hpc]
    exact ⟨rfl, hpush⟩

theorem rendered (h : Inv p t) (hpc : t.pc = .rendering) {c : ℕ} {pending : List (Option String)}
    {r : Rendered} {now : ℚ} {write : Except String Unit}
    (hwrite : WriteSucceeds pb p (.rendered r now write)) :
    Inv p (t.rendered pb p c pending r now write).1 := by
  simp only [Inv, hpc] at h
  obtain ⟨hsent, hgoing⟩ := h
  have hnote (errs : List String) : Going p (t.note errs) (t.results ++ [(t.note errs).record]) :=
    amend hgoing rfl rfl rfl rfl rfl rfl
  rcases Task.rendered_cases pb p c pending t r now write with
    ⟨errs, error, overall, heq, -⟩ | ⟨errs, m, heq, rfl, hvalid⟩
  · rw [heq]
    exact fail (hnote errs) error overall
  · rw [heq]
    rcases Task.send_cases pb c pending (t.note errs) m now write with
      ⟨exc, -, hsend⟩ | ⟨decoded, hdecoded, -, hsend⟩
    · rw [hsend]
      trivial
    · have hok := hwrite hvalid ⟨decoded, hdecoded⟩
      rcases hsend with ⟨-, hsend⟩ | ⟨hno, -⟩
      · rw [hsend]
        have hidx := (hnote errs).books.index
        exact ⟨hsent, hgoing.refused, hgoing.overall,
          (hnote errs).books.amend rfl rfl rfl rfl
            ((hnote errs).books.balanced.stamp_sent hsent rfl hidx)⟩
      · exact absurd hok hno

theorem flushed (h : Inv p t) (hpc : t.pc = .flushing) (now : ℚ) :
    Inv p (t.flushed (.ok ()) now) := by
  simp only [Inv, hpc] at h
  exact ⟨h.2.refused, h.2.overall, h.2.books⟩

theorem take (h : Going p t (t.results ++ [t.record])) (drain : Bool) (deadline now : ℚ)
    (item : Inbound) : Inv p (t.take pb drain deadline now item) := by
  rcases Task.take_cases pb t drain deadline now item with ⟨exc, heq⟩ | ⟨e, hdir, hstep, hcase⟩
  · rw [heq]
    trivial
  · have hbal := h.books.balanced.stamp_recv hdir (hstep.trans h.books.index)
    have hbooks : Books p false none (t.transcript ++ [e])
        (t.results ++ [{ t.record with recv_count := t.record.recv_count + 1 }]) :=
      h.books.amend rfl rfl rfl rfl hbal
    rcases hcase with ⟨w, -, -, -, heq⟩ | ⟨-, heq⟩
    · rw [heq]
      exact ⟨h.refused, h.overall, hbooks.amend rfl rfl rfl rfl (hbal.congr rfl rfl)⟩
    · rw [heq]
      exact ⟨h.refused, h.overall, hbooks⟩

theorem leaveLoop (h : Going p t (t.results ++ [t.record])) (drain : Bool) :
    Inv p (t.leaveLoop drain) := by
  cases drain <;> exact ⟨h.refused, h.overall, h.books⟩

theorem next (h : Inv p t) (hpc : t.pc = .received) (now : ℚ) : Inv p (t.next now) := by
  simp only [Inv, hpc] at h
  rw [Task.next]
  split <;> exact ⟨h.refused, h.overall, h.books⟩

theorem endStep (h : Inv p t) (hpc : t.pc = .ending) (now : ℚ) : Inv p (t.endStep p now) := by
  simp only [Inv, hpc] at h
  obtain ⟨ms, hcase⟩ := Task.endStep_cases p t now
  have hms := amend (r := { t.record with elapsed_ms := some ms }) h rfl rfl rfl rfl rfl rfl
  rcases hcase with ⟨text, heq⟩ | heq
  · rw [heq]
    exact fail hms text text
  · rw [heq]
    have hidx := h.books.index
    by_cases hlast : t.record.index + 1 < p.steps.length
    · rw [if_pos hlast]
      refine ⟨?_, hms.refused, hms.overall, hms.books⟩
      rw [hidx, List.length_append]
      rfl
    · rw [if_neg hlast]
      show Books p t.refused t.overall_error t.transcript _
      rw [h.refused, h.overall]
      exact hms.books

theorem close (h : Inv p t) {exc : Option String} (hpc : t.pc = .closing exc) (reader : Reader)
    (end_utc : String) (saved : Bool) : Inv p (t.close p reader exc end_utc saved) := by
  rcases Task.close_cases p reader t exc end_utc saved with ⟨exc', heq⟩ | ⟨rfl, heq⟩
  · rw [heq]
    trivial
  · rw [heq]
    simp only [Inv, hpc] at h
    exact h.finalise end_utc

end Inv

/-- A step whose write succeeds keeps the books in order. -/
theorem inv_step (s : State D) (l : Label) (s' : State D) (h : Inv p s.task)
    (hl : WriteSucceeds pb p l) (hs : State.step pb p s l = some s') : Inv p s'.task := by
  cases l with
  | arrive payload => rw [State.step_arrive hs]; exact h
  | feed_eof => rw [State.step_feed_eof hs]; exact h
  | signal e => rw [State.step_signal hs]; exact h
  | read => rw [State.step_read hs]; exact h
  | connect o end_utc saved =>
      obtain ⟨hpc, rfl⟩ := State.step_connect hs
      exact h.connect hpc o end_utc saved
  | begin_step now =>
      obtain ⟨idx, step, hpc, hstep, rfl⟩ := State.step_begin hs
      exact h.beginStep hpc hstep now
  | woke =>
      obtain ⟨hpc, rfl⟩ := State.step_woke hs
      simp only [Inv, hpc] at h
      exact ⟨h.1, h.2.refused, h.2.overall, h.2.books⟩
  | rendered r now write =>
      obtain ⟨hpc, rfl⟩ := State.step_rendered hs
      exact h.rendered hpc hl
  | flushed o now =>
      obtain ⟨hpc, rfl⟩ := State.step_flushed hs
      cases hl
      exact h.flushed hpc now
  | poll now stamped =>
      obtain ⟨drain, deadline, hpc, hcase⟩ := State.step_poll hs
      simp only [Inv, hpc] at h
      rcases hcase with rfl | rfl | ⟨item, inbox, -, rfl⟩
      · exact Inv.leaveLoop h drain
      · exact ⟨h.refused, h.overall, h.books⟩
      · exact Inv.take h drain deadline stamped item
  | got stamped =>
      obtain ⟨drain, deadline, item, inbox, hpc, -, rfl⟩ := State.step_got hs
      simp only [Inv, hpc] at h
      exact Inv.take h drain deadline stamped item
  | timeout =>
      obtain ⟨drain, deadline, hpc, rfl⟩ := State.step_timeout hs
      simp only [Inv, hpc] at h
      exact Inv.leaveLoop h drain
  | next now =>
      obtain ⟨hpc, rfl⟩ := State.step_next hs
      exact h.next hpc now
  | end_step now =>
      obtain ⟨hpc, rfl⟩ := State.step_end hs
      exact h.endStep hpc now
  | close end_utc saved =>
      obtain ⟨exc, hpc, rfl⟩ := State.step_close hs
      exact h.close hpc s.conn.reader end_utc saved

/-! ## Failed writes -/

/-- The transcript has a message of a step that is not booked as sent. -/
def Spoiled (p : Params) (t : Task D) : Prop :=
  match t.pc with
  | .closing none => ∃ i r, t.results[i]? = some r ∧ i < p.steps.length ∧ r.sent = false ∧
      0 < tally .sent i t.transcript
  | .returned r => ¬ Accounting p t.refused r
  | .raised _ => True
  | _ => False

/-- A step that fails after its message was stamped spoils the books. -/
theorem spoiled_fail {t : Task D} (error overall : String)
    (hidx : t.results.length < p.steps.length)
    (hsent : t.record.sent = false) (htally : 0 < tally .sent t.results.length t.transcript) :
    Spoiled p (t.fail error overall) :=
  ⟨t.results.length, _, getElem?_snoc_self t.results _, hidx, hsent, htally⟩

/-- A write that fails spoils the books. -/
theorem spoiled_of_write (s : State D) (l : Label) (s' : State D) (h : Inv p s.task)
    (hl : ¬ WriteSucceeds pb p l) (hs : State.step pb p s l = some s') : Spoiled p s'.task := by
  unfold WriteSucceeds at hl
  split at hl
  · rename_i m now write
    push Not at hl
    obtain ⟨hvalid, ⟨decoded, hdecoded⟩, hno⟩ := hl
    obtain ⟨hpc, rfl⟩ := State.step_rendered hs
    simp only [Inv, hpc] at h
    obtain ⟨hsent, hgoing⟩ := h
    rcases Task.rendered_cases pb p s.conn.arrivals ((State.unseen pb s.conn).map Prod.snd) s.task
      (.message m) now write with ⟨errs, error, overall, -, herrs⟩ | ⟨errs, m', heq, hm, -⟩
    · obtain ⟨hv, hne⟩ := herrs m rfl
      exact absurd (hvalid hv) hne
    · cases hm
      rw [heq]
      rcases Task.send_cases pb s.conn.arrivals ((State.unseen pb s.conn).map Prod.snd)
        (s.task.note errs) m now write with
        ⟨exc, hexc, -⟩ | ⟨d, -, -, ⟨⟨hb, hw⟩, -⟩ | ⟨-, text, hsend⟩⟩
      · cases hexc.symm.trans hdecoded
      · exact absurd hw (hno hb)
      · rw [hsend]
        refine spoiled_fail _ _ ?_ hsent ?_
        · have := hgoing.books.length_le
          rw [List.length_append] at this
          exact this
        · show 0 < tally .sent s.task.results.length (s.task.transcript ++ [_])
          rw [tally_append, if_pos ⟨rfl, hgoing.books.index⟩]
          exact Nat.succ_pos _
  · rename_i o now
    obtain ⟨hpc, rfl⟩ := State.step_flushed hs
    simp only [Inv, hpc] at h
    obtain ⟨hsent, hgoing⟩ := h
    cases o with
    | ok u => exact absurd rfl hl
    | error exc =>
        refine spoiled_fail _ _ ?_ hsent ?_
        · have := hgoing.books.length_le
          rw [List.length_append] at this
          exact this
        · rw [(hgoing.books.balanced _).1, getElem?_snoc_self]
          exact Nat.one_pos
  · exact absurd trivial hl

/-- Spoiled books stay spoiled. -/
theorem spoiled_step (s : State D) (l : Label) (s' : State D) (h : Spoiled p s.task)
    (hs : State.step pb p s l = some s') : Spoiled p s'.task := by
  cases l with
  | arrive payload => rw [State.step_arrive hs]; exact h
  | feed_eof => rw [State.step_feed_eof hs]; exact h
  | signal e => rw [State.step_signal hs]; exact h
  | read => rw [State.step_read hs]; exact h
  | connect o end_utc saved => simp only [Spoiled, (State.step_connect hs).1] at h
  | begin_step now =>
      obtain ⟨idx, step, hpc, -⟩ := State.step_begin hs
      simp only [Spoiled, hpc] at h
  | woke => simp only [Spoiled, (State.step_woke hs).1] at h
  | rendered r now write => simp only [Spoiled, (State.step_rendered hs).1] at h
  | flushed o now => simp only [Spoiled, (State.step_flushed hs).1] at h
  | poll now stamped =>
      obtain ⟨drain, deadline, hpc, -⟩ := State.step_poll hs
      simp only [Spoiled, hpc] at h
  | got stamped =>
      obtain ⟨drain, deadline, item, inbox, hpc, -⟩ := State.step_got hs
      simp only [Spoiled, hpc] at h
  | timeout =>
      obtain ⟨drain, deadline, hpc, -⟩ := State.step_timeout hs
      simp only [Spoiled, hpc] at h
  | next now => simp only [Spoiled, (State.step_next hs).1] at h
  | end_step now => simp only [Spoiled, (State.step_end hs).1] at h
  | close end_utc saved =>
      obtain ⟨exc, hpc, rfl⟩ := State.step_close hs
      dsimp only
      rcases Task.close_cases p s.conn.reader s.task exc end_utc saved with
        ⟨exc', heq⟩ | ⟨rfl, heq⟩
      · rw [heq]
        trivial
      · rw [heq]
        simp only [Spoiled, hpc] at h
        obtain ⟨i, r, hr, hi, hsent, htally⟩ := h
        intro hacc
        obtain ⟨step, hstep⟩ : ∃ step, p.steps[i]? = some step :=
          ⟨_, List.getElem?_eq_getElem hi⟩
        have hcount := hacc.sent i (shape i step (some r)) (by
          rw [finalise, shapes_getElem?, Nat.zero_add, hstep, hr, Option.map_some])
        rw [shape_sent, Option.any_some, hsent] at hcount
        exact htally.ne' hcount

/-- The accounts in a result agree if and only if no write failed. -/
theorem accounting_iff_writes_succeed {ls : List Label} {s : State D} {r : Result D}
    (hrun : (State.step pb p).run State.start ls = some s) (hr : s.task.pc = .returned r) :
    Accounting p s.task.refused r ↔
      (State.step pb p).Meets (fun _ l ↦ WriteSucceeds pb p l) State.start ls := by
  constructor
  · intro hacc
    by_contra hno
    have hspoiled := Machine.spoiled (I := fun s ↦ Inv p s.task) (B := fun s ↦ Spoiled p s.task)
      inv_step spoiled_of_write spoiled_step hno inv_start hrun
    simp only [Spoiled, hr] at hspoiled
    exact hspoiled hacc
  · intro hok
    have hinv := Machine.Meets.invariant (I := fun s ↦ Inv p s.task) inv_step hok inv_start hrun
    simpa only [Inv, hr] using hinv

/-- What the main task has returned, if it has. -/
def State.result (s : State D) : Option (Result D) :=
  match s.task.pc with
  | .returned r => some r
  | _ => none

theorem State.pc_of_result {s : State D} {r : Result D} (h : s.result = some r) :
    s.task.pc = .returned r := by
  unfold State.result at h
  split at h
  · rename_i hpc
    cases h
    exact hpc
  · cases h

/-- No write fails, and the accounts agree: two messages are sent and two received. -/
theorem accounting_iff_writes_succeed_acknowledged : ∃ s r,
    (State.step fewMessages twoSteps).run State.start acknowledged = some s ∧
    s.task.pc = .returned r ∧
    r.transcript.map (fun e ↦ (e.direction, e.step)) =
      [(.sent, 0), (.recv, 0), (.sent, 1), (.recv, 1)] ∧
    Accounting twoSteps s.task.refused r := by
  have hrun : (((State.step fewMessages twoSteps).run State.start acknowledged).bind
      State.result).map (fun r ↦ r.transcript.map fun e ↦ (e.direction, e.step)) =
        some [(.sent, 0), (.recv, 0), (.sent, 1), (.recv, 1)] := by
    decide +kernel
  obtain ⟨r, hr, htranscript⟩ := Option.map_eq_some_iff.mp hrun
  obtain ⟨s, hs, hres⟩ := Option.bind_eq_some_iff.mp hr
  refine ⟨s, r, hs, State.pc_of_result hres, htranscript,
    (accounting_iff_writes_succeed hs (State.pc_of_result hres)).mpr ?_⟩
  have henc : Wire.encode (fewMessages.serialize registration) = .ok [2, 0, 0, 0, 0x22, 0] := by
    decide +kernel
  rw [Machine.meets_iff_forall hs]
  simp [acknowledged, WriteSucceeds, henc]

/-- The connection goes before the first message is flushed. -/
def unflushed : List Label :=
  [.connect .connected "" true, .begin_step 0, .read,
   .rendered (.message registration) 1 (.ok ()), .signal .connection_lost,
   .flushed (.error "Connection lost") 2, .close "" true]

/-- A message whose write fails is in the transcript, and its step is not sent. -/
theorem failed_write_unbalanced : ∃ s r,
    (State.step fewMessages twoSteps).run State.start unflushed = some s ∧
    s.task.pc = .returned r ∧ r.steps.map StepResult.sent = [false, false] ∧
    tally .sent 0 r.transcript = 1 ∧ ¬ Accounting twoSteps s.task.refused r := by
  have hrun : (((State.step fewMessages twoSteps).run State.start unflushed).bind
      State.result).map (fun r ↦ (r.steps.map StepResult.sent, tally .sent 0 r.transcript)) =
        some ([false, false], 1) := by
    decide +kernel
  obtain ⟨r, hr, hval⟩ := Option.map_eq_some_iff.mp hrun
  obtain ⟨s, hs, hres⟩ := Option.bind_eq_some_iff.mp hr
  obtain ⟨hsent, htally⟩ := Prod.mk.inj hval
  refine ⟨s, r, hs, State.pc_of_result hres, hsent, htally, fun h ↦ ?_⟩
  have hfirst : (r.steps.map StepResult.sent)[0]? = some false := by rw [hsent]; rfl
  rw [List.getElem?_map] at hfirst
  obtain ⟨sr, hsr, hfalse⟩ := Option.map_eq_some_iff.mp hfirst
  have hcount := h.sent 0 sr hsr
  rw [htally, hfalse] at hcount
  cases hcount

end SensorFusion.Flow
