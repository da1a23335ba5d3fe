import Mathlib.Data.List.Dedup
import Mathlib.Data.List.Sort
import SensorFusion.Lib.Dict
import SensorFusion.Lib.Except
import SensorFusion.Lib.Machine
import SensorFusion.Ntp.Probe

/-!
# The NTP service

A probe round queries every configured server at once, then enters the results into
`_PER_SOURCE` and votes on them (`main.py`).  The two are published by `/ntp/sources` and
`/ntp/current`.  Rounds overlap: the poll loop has one in flight and each `/ntp/refresh`
another.  A round reads nothing of the module's state before it enters its results, so a
round in flight is no more than a count, and its probes bring their answers when it ends.

The vote is taken over the list of results, and `_PER_SOURCE` has one entry a name.  The two
agree when no name is configured twice.
-/

namespace SensorFusion.Ntp

/-! ## `_vote` -/

/-- `statistics.median`, of a list that is not empty. -/
def median (data : List ℚ) : ℚ :=
  let data := data.insertionSort (· ≤ ·)
  let n := data.length
  if n % 2 = 1 then data.getD (n / 2) 0
  else (data.getD (n / 2 - 1) 0 + data.getD (n / 2) 0) / 2

/-- The more severe of two severities; the first one if they are alike. -/
def worse (s s' : Severity) : Severity := if s.rank < s'.rank then s' else s

structure Vote where
  ok : Bool
  offset_s : Option ℚ
  rtt_s : Option ℚ
  error : Option String
  severity : Severity
  voted_from : ℕ
  asked : ℕ
  warn_threshold_s : ℚ
  fail_threshold_s : ℚ
deriving DecidableEq

/-- The results that are voted on. -/
def okResults (results : List NtpResult) : List NtpResult :=
  results.filter fun r ↦ r.ok && r.offset_s.isSome

/-- `_vote`. -/
def vote (results : List NtpResult) : Vote :=
  let ok_results := okResults results
  if ok_results = [] then
    { ok := false
      offset_s := none
      rtt_s := none
      error := some (((results.filterMap NtpResult.error).find? (· ≠ "")).getD
        "no reachable NTP sources")
      severity := .fail
      voted_from := 0
      asked := results.length
      warn_threshold_s := WARN_THRESHOLD_S
      fail_threshold_s := FAIL_THRESHOLD_S }
  else
    let median_s := median (ok_results.filterMap NtpResult.offset_s)
    let worst := (ok_results.map NtpResult.severity).foldl worse .ok
    let rtts := ok_results.filterMap NtpResult.rtt_s
    { ok := true
      offset_s := some median_s
      rtt_s := if rtts = [] then none else some (median rtts)
      error := none
      severity := worse (severityOf |median_s|) worst
      voted_from := ok_results.length
      asked := results.length
      warn_threshold_s := WARN_THRESHOLD_S
      fail_threshold_s := FAIL_THRESHOLD_S }

@[simp] theorem voted_from_vote (results : List NtpResult) :
    (vote results).voted_from = (okResults results).length := by
  unfold vote
  dsimp only
  split
  · rename_i h
    rw [h]
    rfl
  · rfl

@[simp] theorem asked_vote (results : List NtpResult) : (vote results).asked = results.length := by
  unfold vote
  dsimp only
  split <;> rfl

/-! ## The state -/

/-- An entry of `_PER_SOURCE`: the last result, and three times. -/
structure Source where
  result : NtpResult
  first_seen : ℚ
  last_probed_at : ℚ
  last_ok_at : Option ℚ
deriving DecidableEq

/-- What a result makes of the entry of its server. -/
def Source.next (now : ℚ) (entry : Option Source) (r : NtpResult) : Source where
  result := r
  first_seen := (entry.map Source.first_seen).getD now
  last_probed_at := now
  last_ok_at := if r.ok then some now else entry.bind Source.last_ok_at

/-- `_VOTED`. -/
inductive Voted where
  | not_yet_probed
  | vote (v : Vote)
deriving DecidableEq

structure State where
  /-- `_PER_SOURCE`. -/
  per_source : Dict Text Source
  /-- `_VOTED`. -/
  voted : Voted
  /-- How many rounds are in flight. -/
  rounds : ℕ
deriving DecidableEq

def DEFAULT_SERVERS : List Text := ["pool.ntp.org".toList]

/-- `_SERVERS`, made of `NTP_SERVERS` at the start. -/
def servers (raw : Option Text) : List Text :=
  match raw with
  | none => DEFAULT_SERVERS
  | some raw => ((raw.split ',').map Text.strip).filter (· ≠ [])

/-- What can happen: a round begins, at the start, in the poll loop or in `/ntp/refresh`, or
one is through with its probes. -/
inductive Label where
  | begin_round
  | end_round (answers : List Exchange) (now : ℚ)

/-- `asyncio.gather` of the queries, which raises what one of them raises. -/
def gather (servers : List Text) (answers : List Exchange) : Except String (List NtpResult) :=
  (servers.zip answers).mapM fun (server, answer) ↦ querySync server answer

namespace State

/-- Before the first round. -/
def boot : State := ⟨∅, .not_yet_probed, 0⟩

/-- The end of `_probe_round`: enter the results, and vote. -/
def publish (now : ℚ) (results : List NtpResult) (s : State) : State := { s with
  per_source := Dict.enterAll NtpResult.server (Source.next now) results s.per_source
  voted := .vote (Ntp.vote results) }

/-- The service. -/
def step (servers : List Text) : Machine State Label
  | s, .begin_round => some { s with rounds := s.rounds + 1 }
  | s, .end_round answers now =>
      if s.rounds = 0 ∨ answers.length ≠ servers.length then none
      else
        match gather servers answers with
        | .error _ => some { s with rounds := s.rounds - 1 }
        | .ok results => some ({ s with rounds := s.rounds - 1 }.publish now results)

/-- The results that `/ntp/sources` shows. -/
def published (s : State) : List NtpResult := s.per_source.items.map fun a ↦ a.2.result

/-- `/ntp/current` shows the vote over what `/ntp/sources` shows. -/
structure Agrees (s : State) : Prop where
  voted : s.voted = .vote (Ntp.vote s.published)
  voted_from : ∀ v, s.voted = .vote v → v.voted_from = s.published.countP NtpResult.ok

end State

/-! ## The results of a round -/

theorem gather_spec {servers : List Text} {answers : List Exchange} {results : List NtpResult}
    (hlen : answers.length = servers.length) (h : gather servers answers = .ok results) :
    results.map NtpResult.server = servers ∧ ∀ r ∈ results, r.Sound := by
  induction servers generalizing answers results with
  | nil =>
      cases h
      exact ⟨rfl, nofun⟩
  | cons server servers ih =>
      cases answers with
      | nil => cases hlen
      | cons answer answers =>
          rw [gather, List.zip_cons_cons, List.mapM_cons] at h
          obtain ⟨r, hr, h⟩ := bind_eq_ok.mp h
          obtain ⟨rs, hrs, h⟩ := bind_eq_ok.mp h
          cases h
          obtain ⟨hserver, hsound⟩ := querySync_spec hr
          obtain ⟨hservers, hsounds⟩ := ih (Nat.succ.inj hlen) hrs
          exact ⟨by rw [List.map_cons, hserver, hservers],
            List.forall_mem_cons.mpr ⟨hsound, hsounds⟩⟩

/-- A sound result is voted on exactly when it is ok. -/
theorem length_okResults {results : List NtpResult} (h : ∀ r ∈ results, r.Sound) :
    (okResults results).length = results.countP NtpResult.ok := by
  rw [okResults, ← List.countP_eq_length_filter]
  refine List.countP_congr fun r hr ↦ ?_
  rw [(h r hr).offset, Bool.and_self]

/-! ## The invariant -/

/-- Either no round has been through, or the vote is that on the last results, and every
server has an entry. -/
inductive Kept (servers : List Text) (s : State) : Prop where
  | fresh (hvoted : s.voted = .not_yet_probed) (hsource : s.per_source = ∅)
  | voted (results : List NtpResult) (hvoted : s.voted = .vote (vote results))
      (hservers : results.map NtpResult.server = servers) (hsound : ∀ r ∈ results, r.Sound)
      (hmem : ∀ k, k ∈ s.per_source ↔ k ∈ servers)
      (hpublished : servers.Nodup → s.per_source.keys = servers ∧ s.published = results)

namespace Kept

variable {servers : List Text} {s : State}

/-- The keys are those of the servers as soon as there is one. -/
theorem mem_imp (h : Kept servers s) {k : Text} (hk : k ∈ s.per_source) : k ∈ servers := by
  cases h with
  | fresh _ hsource =>
      rw [hsource] at hk
      exact absurd hk (Dict.notMem_empty k)
  | voted _ _ _ _ hmem => exact (hmem k).mp hk

/-- The servers that have no entry yet come in order. -/
theorem keys_append (h : Kept servers s) (hnodup : servers.Nodup) :
    s.per_source.keys ++ servers.filter (fun k ↦ k ∉ s.per_source) = servers := by
  cases h with
  | fresh _ hsource =>
      rw [hsource, Dict.keys_empty, List.nil_append, List.filter_eq_self]
      exact fun k _ ↦ decide_eq_true (Dict.notMem_empty k)
  | voted _ _ _ _ hmem hpublished =>
      have hnone : servers.filter (fun k ↦ k ∉ s.per_source) = [] := by
        rw [List.filter_eq_nil_iff]
        exact fun k hk ↦ by simpa using (hmem k).mpr hk
      rw [hnone, List.append_nil, (hpublished hnodup).1]

theorem publish (h : Kept servers s) (now : ℚ) {results : List NtpResult}
    (hservers : results.map NtpResult.server = servers) (hsound : ∀ r ∈ results, r.Sound) :
    Kept servers (s.publish now results) := by
  refine .voted results rfl hservers hsound (fun k ↦ ?_) fun hnodup ↦ ?_
  · rw [State.publish, Dict.mem_enterAll, hservers]
    exact or_iff_right_of_imp h.mem_imp
  · have hdistinct : (results.map NtpResult.server).Nodup := hservers.symm ▸ hnodup
    have hkeys : (s.publish now results).per_source.keys = results.map NtpResult.server := by
      rw [State.publish, Dict.keys_enterAll hdistinct, hservers]
      exact h.keys_append hnodup
    have hitems := Dict.items_eq_map hkeys fun r hr ↦ Dict.get?_enterAll hdistinct s.per_source hr
    refine ⟨hkeys.trans hservers, ?_⟩
    rw [State.published, hitems, List.map_map]
    exact List.map_id _

end Kept

theorem kept_step {servers : List Text} (s : State) (l : Label) (s' : State) (h : Kept servers s)
    (hs : State.step servers s l = some s') : Kept servers s' := by
  have hrounds (n : ℕ) : Kept servers { s with rounds := n } := by
    cases h with
    | fresh hvoted hsource => exact .fresh hvoted hsource
    | voted results hvoted hservers hsound hmem hpublished =>
        exact .voted results hvoted hservers hsound hmem hpublished
  cases l with
  | begin_round =>
      cases hs
      exact hrounds _
  | end_round answers now =>
      simp only [State.step] at hs
      split at hs
      · cases hs
      · rename_i hready
        cases hgather : gather servers answers with
        | error exc =>
            rw [hgather] at hs
            cases hs
            exact hrounds _
        | ok results =>
            rw [hgather] at hs
            cases hs
            obtain ⟨hservers, hsound⟩ := gather_spec (not_not.mp (not_or.mp hready).2) hgather
            exact (hrounds _).publish now hservers hsound

/-- As soon as a round has been through, `/ntp/current` is the vote over what `/ntp/sources`
shows if and only if no server is configured twice. -/
theorem agrees_iff_nodup (raw : Option Text) {ls : List Label} {s : State}
    (hrun : (State.step (servers raw)).run .boot ls = some s) (hvoted : s.voted ≠ .not_yet_probed) :
    s.Agrees ↔ (servers raw).Nodup := by
  have h : Kept (servers raw) s := Machine.invariant kept_step (.fresh rfl rfl) hrun
  cases h with
  | fresh hno => exact absurd hno hvoted
  | voted results hvote hservers hsound hmem hpublished =>
      constructor
      · intro hagrees
        -- a name that is configured twice is asked twice, and has one entry
        have hvotes : vote results = vote s.published :=
          Voted.vote.inj (hvote.symm.trans hagrees.voted)
        have hasked := congrArg Vote.asked hvotes
        have hlen : s.published.length = s.per_source.keys.length := by
          rw [State.published, Dict.keys, List.length_map, List.length_map]
        rw [asked_vote, asked_vote, ← List.length_map (f := NtpResult.server), hservers,
          hlen] at hasked
        have hsub := List.subperm_of_subset s.per_source.nodup_keys fun k hk ↦ (hmem k).mp hk
        exact (hsub.perm_of_length_le hasked.le).nodup s.per_source.nodup_keys
      · intro hnodup
        obtain ⟨-, hpublished⟩ := hpublished hnodup
        refine ⟨by rw [hvote, hpublished], fun v hv ↦ ?_⟩
        cases Voted.vote.inj (hvote.symm.trans hv)
        rw [voted_from_vote, length_okResults hsound, hpublished]

/-- The answer of a server at the Unix epoch, whose clock is right. -/
def epoch : Exchange :=
  .reply 0 (List.replicate 32 0 ++ [0x83, 0xAA, 0x7E, 0x80, 0, 0, 0, 0] ++
    [0x83, 0xAA, 0x7E, 0x80, 0, 0, 0, 0]) 0

theorem agrees_two_servers : ∃ s,
    (State.step (servers (some "a, b".toList))).run .boot
      [.begin_round, .begin_round, .end_round [epoch, .network "timed out"] 1,
        .end_round [epoch, epoch] 2] = some s ∧ s.Agrees := by
  have hvoted : ((State.step (servers (some "a, b".toList))).run .boot
      [.begin_round, .begin_round, .end_round [epoch, .network "timed out"] 1,
        .end_round [epoch, epoch] 2]).map (fun s ↦ decide (s.voted ≠ .not_yet_probed)) =
      some true := by decide +kernel
  obtain ⟨s, hs, hdone⟩ := Option.map_eq_some_iff.mp hvoted
  exact ⟨s, hs, (agrees_iff_nodup _ hs (of_decide_eq_true hdone)).mpr (by decide +kernel)⟩

/-- A server that is configured twice has two votes and one entry. -/
theorem server_configured_twice : ∃ s v,
    (State.step (servers (some "a,a".toList))).run .boot
      [.begin_round, .end_round [epoch, epoch] 1] = some s ∧ s.voted = .vote v ∧
    v.voted_from = 2 ∧ s.published.countP NtpResult.ok = 1 ∧ ¬ s.Agrees := by
  have hrun : ((State.step (servers (some "a,a".toList))).run .boot
      [.begin_round, .end_round [epoch, epoch] 1]).map
      (fun s ↦ (s.voted, s.published.countP NtpResult.ok)) =
      some (.vote (vote [⟨['a'], true, some 0, some 0, none, .ok⟩,
        ⟨['a'], true, some 0, some 0, none, .ok⟩]), 1) := by decide +kernel
  obtain ⟨s, hs, hval⟩ := Option.map_eq_some_iff.mp hrun
  obtain ⟨hvoted, hcount⟩ := Prod.mk.inj hval
  refine ⟨s, _, hs, hvoted, voted_from_vote _, hcount, fun h ↦ ?_⟩
  have htwo := h.voted_from _ hvoted
  rw [hcount, voted_from_vote] at htwo
  exact absurd htwo (by decide)

end SensorFusion.Ntp
