import SensorFusion.Lib.Editing
import SensorFusion.Python.Lines

/-!
# The forwarding targets of the router

The router keeps its targets as texts `host;port;proto`.  `_read_gps` takes them apart, the
panel shows them as the rows of a table, and an edit reads the rows back, drops or adds one
and has `set_forwarding_hosts` write the whole list again.  So every target goes once around
with each edit, and `Fixed` says which ones come back as they were.

The rows are those of the last rendering, whatever the router has been told since; and what
they were rendered from was written into the page as it is, so that it is the browser that
says what rows are found there.
-/

namespace SensorFusion

namespace Text

/-! ## Integers in decimal -/

/-- `str(n)` of an integer. -/
def ofInt : ℤ → Text
  | .ofNat n => Nat.toDigits 10 n
  | .negSucc n => '-' :: Nat.toDigits 10 (n + 1)

/-- Only the decimal of a natural number consists of digits. -/
theorem isdigit_ofInt (n : ℤ) : isdigit (ofInt n) = true ↔ 0 ≤ n := by
  cases n with
  | ofNat n =>
      refine iff_of_true ?_ (Int.natCast_nonneg n)
      rw [ofInt, isdigit, Bool.and_eq_true, decide_eq_true_iff, List.all_eq_true]
      exact ⟨Nat.toDigits_ne_nil, fun c hc ↦ isDigitChar_of_isDigit (isDigit_of_mem_toDigits hc)⟩
  | negSucc n =>
      refine iff_of_false ?_ (Int.not_le.mpr (Int.negSucc_lt_zero n))
      rw [ofInt, isdigit, List.all_cons]
      have hminus : isDigitChar '-' = false := by decide
      rw [hminus, Bool.false_and, Bool.and_false]
      exact Bool.false_ne_true

/-- A decimal that is not too long is read back. -/
theorem int?_ofInt_natCast {n : ℕ} (h : n < 10 ^ MAX_STR_DIGITS) :
    int? (ofInt n) = some (n : ℤ) := by
  show int? (Nat.toDigits 10 n) = _
  have hdigits : ∀ c ∈ Nat.toDigits 10 n, c.isDigit := fun _ ↦ isDigit_of_mem_toDigits
  have hlength : (Nat.toDigits 10 n).countP (· ≠ '_') ≤ MAX_STR_DIGITS :=
    List.countP_le_length.trans
      ((Nat.length_toDigits_le_iff (by decide) (by decide)).mpr h)
  have hdecimal : decimal? (Nat.toDigits 10 n) = some n := by
    rw [decimal?, if_pos hlength, nat?_of_digits Nat.toDigits_ne_nil hdigits,
      Nat.ofDigitChars_ten_toDigits]
  rw [int?, literal_eq_self fun c hc ↦ Or.inl (hdigits c hc)]
  unfold signed?
  split
  · rename_i s heq
    exact absurd (hdigits '+' (heq ▸ List.mem_cons_self)) (by decide)
  · rename_i s heq
    exact absurd (hdigits '-' (heq ▸ List.mem_cons_self)) (by decide)
  · rw [hdecimal]
    rfl

theorem notMem_ofInt {sep : Char} (hsep : sep.isDigit = false) (hminus : sep ≠ '-') (n : ℤ) :
    sep ∉ ofInt n := by
  intro h
  cases n with
  | ofNat n =>
      have hd := isDigit_of_mem_toDigits h
      rw [hsep] at hd
      cases hd
  | negSucc n =>
      rcases List.mem_cons.mp h with h | h
      · exact hminus h
      · have hd := isDigit_of_mem_toDigits h
        rw [hsep] at hd
        cases hd

end Text

namespace Ui

/-! ## `_read_gps` and `set_forwarding_hosts` -/

/-- One of the `targets` of `_read_gps`. -/
structure Target where
  host : Text
  port : Option ℤ
  proto : Option Text
deriving DecidableEq

/-- `_read_gps`, on one entry.  `none` is the `ValueError` of `int`, for a digit that is not
a decimal one or for too many of them. -/
def readTarget (raw : Text) : Option Target :=
  let parts := Text.split ';' raw
  let host := parts.headD []
  let proto := parts[2]?
  match parts[1]? with
  | none => some ⟨host, none, proto⟩
  | some port =>
      if Text.isdigit port then (Text.int? port).map fun n ↦ ⟨host, some n, proto⟩
      else some ⟨host, none, proto⟩

/-- The targets of a `host_info`. -/
def readTargets (host_info : List Text) : Option (List Target) := host_info.mapM readTarget

/-- An integer that JavaScript writes without an exponent. -/
abbrev JsInt := {n : ℤ // n.natAbs < 10 ^ 21}

/-- One of the `hosts` of a request; a NaN becomes `null` there. -/
structure Host where
  host : Text
  port : Option JsInt
  proto : Text
deriving DecidableEq

/-- `s.lower()`, as far as the comparison with the protocols sees it. -/
def lower (s : Text) : Text := s.map Char.toLower

/-- The protocols that a target can have. -/
def PROTOS : List Text := ["udp".toList, "tcp".toList]

/-- `f"{h};{p};{proto}"`. -/
def entry (host : Text) (port : ℤ) (proto : Text) : Text :=
  host ++ ';' :: (Text.ofInt port ++ ';' :: proto)

/-- The entry of one target; `none` when it is not valid. -/
def hostInfo (t : Host) : Option Text :=
  let host := Text.strip t.host
  let proto := lower (Text.strip (if t.proto = [] then "udp".toList else t.proto))
  match t.port with
  | none => none
  | some port => if host = [] ∨ proto ∉ PROTOS then none else some (entry host port.val proto)

/-- `set_forwarding_hosts` up to its PUT: the `host_info` that it sends the router.  Anything
else is an error that reaches the panel. -/
def setForwardingHosts (host_info : List Text) (hosts : List Host) : Option (List Text) :=
  (readTargets host_info).bind fun _ ↦ hosts.mapM hostInfo

/-! ## The panel -/

/-- The attributes `data-host`, `data-port` and `data-proto` of a row; a port that is missing
is written as `null`. -/
structure Row where
  host : Text
  port : Option ℤ
  proto : Text

/-- The row of a target. -/
def row (t : Target) : Row where
  host := t.host
  port := t.port
  proto := match t.proto with
    | none | some [] => "udp".toList
    | some proto => proto

/-- A text that stands in HTML for itself, as an attribute and as content. -/
def Plain (s : Text) : Prop := ∀ c ∈ s, c ∉ ['"', '&', '<', '\r', '\x00']

theorem plain_of_all {s : Text}
    (h : (s.all fun c ↦ decide (c ∉ ['"', '&', '<', '\r', '\x00'])) = true) : Plain s :=
  fun c hc ↦ of_decide_eq_true (List.all_eq_true.mp h c hc)

/-- The browser: the rows that are found in a panel into which some rows were written, and
the integer that `parseInt` gives for a port that came as JSON and was written out as text. -/
structure Browser where
  html : List Row → List Row
  parseInt : ℤ → Option JsInt
  html_plain : ∀ rows, (∀ r ∈ rows, Plain r.host ∧ Plain r.proto) → html rows = rows
  parseInt_exact : ∀ n : JsInt, n.val.natAbs ≤ 2 ^ 53 → parseInt n.val = some n

namespace Browser

variable (b : Browser)

/-- `_readEdgeTargetRows`, on one row. -/
def readRow (r : Row) : Host where
  host := r.host
  port := r.port.bind b.parseInt
  proto := if r.proto = [] then "udp".toList else r.proto

/-- The rows of a panel that was last rendered when the router held these entries. -/
def rows (shown : List Text) : Option (List Row) :=
  (readTargets shown).map fun targets ↦ b.html (targets.map row)

/-- `t.host === drop.host && t.port === drop.port`; a NaN is equal to nothing. -/
def sameTarget (t drop : Host) : Bool :=
  decide (t.host = drop.host) && t.port.isSome && decide (t.port = drop.port)

/-- A click on the button that removes a row of a panel: what is PUT to the router, which
holds `held` by now. -/
def removeTarget (shown held : List Text) (i : ℕ) : Option (List Text) := do
  let rows ← b.rows shown
  let tr ← rows[i]?
  let drop := b.readRow tr
  setForwardingHosts held ((rows.map b.readRow).filter fun t ↦ !sameTarget t drop)

end Browser

/-- The white space of `String.prototype.trim`. -/
def isJsSpace (c : Char) : Bool :=
  let n := c.toNat
  (9 ≤ n && n ≤ 13) || n == 32 || n == 0xA0 || n == 0x1680 || (0x2000 ≤ n && n ≤ 0x200A) ||
    n == 0x2028 || n == 0x2029 || n == 0x202F || n == 0x205F || n == 0x3000 || n == 0xFEFF

/-- The inputs below the table; the port is what `parseInt` gives for its text. -/
structure Inputs where
  host : Text
  port : Option JsInt
  proto : {s : Text // s ∈ PROTOS}

/-- The host that is added. -/
def Inputs.trimmed (x : Inputs) : Text := Text.stripBy isJsSpace x.host

/-- The target that is added. -/
def Inputs.target (x : Inputs) : Host := ⟨x.trimmed, x.port, x.proto.val⟩

/-- A click on the button that adds a target: what is PUT to the router. -/
def Browser.addTarget (b : Browser) (shown held : List Text) (x : Inputs) :
    Option (List Text) := do
  let rows ← b.rows shown
  let port ← x.port
  if x.trimmed = [] ∨ port.val = 0 then none
  else setForwardingHosts held (rows.map b.readRow ++ [⟨x.trimmed, some port, x.proto.val⟩])

/-! ## Once around -/

section Around

variable {b : Browser} {raw host proto : Text} {port : JsInt}

theorem split_entry (hhost : ';' ∉ host) (hproto : ';' ∉ proto) (port : ℤ) :
    Text.split ';' (entry host port proto) = [host, Text.ofInt port, proto] := by
  rw [entry, Text.split_append hhost, Text.split_append (Text.notMem_ofInt rfl (by decide) port),
    Text.split_of_notMem hproto]

theorem lt_of_jsInt {n : ℕ} (h : n < 10 ^ 21) : n < 10 ^ Text.MAX_STR_DIGITS :=
  h.trans_le (Nat.pow_le_pow_right (by decide) (by decide))

/-- An entry with a port is read as it was written. -/
theorem readTarget_entry (hhost : ';' ∉ host) (hproto : ';' ∉ proto) (hport : 0 ≤ port.val) :
    readTarget (entry host port.val proto) = some ⟨host, some port.val, some proto⟩ := by
  obtain ⟨n, hn⟩ := Int.eq_ofNat_of_zero_le hport
  have hlt := port.property
  rw [hn, Int.natAbs_natCast] at hlt
  rw [readTarget, split_entry hhost hproto]
  simp only [List.headD_cons, List.getElem?_cons_succ, List.getElem?_cons_zero,
    (Text.isdigit_ofInt port.val).mpr hport, if_true]
  rw [hn, Text.int?_ofInt_natCast (lt_of_jsInt hlt), Option.map_some]

/-- A negative port is not read. -/
theorem readTarget_entry_of_neg (hhost : ';' ∉ host) (hproto : ';' ∉ proto)
    (hport : port.val < 0) :
    readTarget (entry host port.val proto) = some ⟨host, none, some proto⟩ := by
  have hdigit : Text.isdigit (Text.ofInt port.val) = false := by
    rw [Bool.eq_false_iff, ne_eq, Text.isdigit_ofInt]
    exact Int.not_le.mpr hport
  rw [readTarget, split_entry hhost hproto]
  simp only [List.headD_cons, List.getElem?_cons_succ, List.getElem?_cons_zero, hdigit]
  rfl

/-- The host and the protocol that are read are parts of the entry. -/
theorem parts_of_readTarget {t : Target} (h : readTarget raw = some t) :
    t.host = (Text.split ';' raw).headD [] ∧ t.proto = (Text.split ';' raw)[2]? := by
  unfold readTarget at h
  dsimp only at h
  split at h
  · cases h
    exact ⟨rfl, rfl⟩
  · split at h
    · obtain ⟨n, -, rfl⟩ := Option.map_eq_some_iff.mp h
      exact ⟨rfl, rfl⟩
    · cases h
      exact ⟨rfl, rfl⟩

theorem host_mem_split {t : Target} (h : readTarget raw = some t) :
    t.host ∈ Text.split ';' raw := by
  rw [(parts_of_readTarget h).1]
  cases hs : Text.split ';' raw with
  | nil =>
      have hlength := Text.length_split ';' raw
      rw [hs] at hlength
      cases hlength
  | cons part parts => exact List.mem_cons_self

/-- The host that is read has no separator. -/
theorem notMem_host {t : Target} (h : readTarget raw = some t) : ';' ∉ t.host :=
  Text.notMem_of_mem_split (host_mem_split h)

/-- What the panel reads of an entry. -/
def seen (b : Browser) (raw : Text) : Option Host :=
  (readTarget raw).map fun t ↦ b.readRow (row t)

theorem proto_notMem (h : proto ∈ PROTOS) : ';' ∉ proto := by
  have hall : ∀ s ∈ PROTOS, ';' ∉ s := by decide
  exact hall proto h

theorem proto_ne_nil (h : proto ∈ PROTOS) : proto ≠ [] := by
  have hall : ∀ s ∈ PROTOS, s ≠ [] := by decide
  exact hall proto h

theorem lower_strip_proto (h : proto ∈ PROTOS) : lower (Text.strip proto) = proto := by
  have hall : ∀ s ∈ PROTOS, lower (Text.strip s) = s := by decide
  exact hall proto h

theorem hostInfo_eq_some_iff {t : Host} {e : Text} :
    hostInfo t = some e ↔ ∃ port, t.port = some port ∧ Text.strip t.host ≠ [] ∧
      ∃ proto ∈ PROTOS, lower (Text.strip (if t.proto = [] then "udp".toList else t.proto)) =
        proto ∧ e = entry (Text.strip t.host) port.val proto := by
  unfold hostInfo
  dsimp only
  cases t.port with
  | none =>
      constructor
      · intro h; cases h
      · rintro ⟨_, h, -⟩; cases h
  | some port =>
      dsimp only
      generalize lower (Text.strip (if t.proto = [] then "udp".toList else t.proto)) = proto
      by_cases hbad : Text.strip t.host = [] ∨ proto ∉ PROTOS
      · rw [if_pos hbad]
        refine iff_of_false (fun h ↦ nomatch h) ?_
        rintro ⟨_, -, hhost, _, hproto, rfl, -⟩
        exact hbad.elim hhost fun h ↦ h hproto
      · rw [if_neg hbad]
        rw [not_or, not_not] at hbad
        constructor
        · intro h
          cases h
          exact ⟨port, rfl, hbad.1, _, hbad.2, rfl, rfl⟩
        · rintro ⟨_, hport, -, _, -, rfl, rfl⟩
          cases hport
          rfl

/-- An entry that comes back as it was: its host is a single part without blanks around it,
and its port is written in the only way that it is written back. -/
structure Fixed (b : Browser) (raw host : Text) (port : JsInt) (proto : Text) : Prop where
  eq : raw = entry host port.val proto
  ne_nil : host ≠ []
  unpadded : Text.strip host = host
  notMem : ';' ∉ host
  nonneg : 0 ≤ port.val
  exact : b.parseInt port.val = some port
  proto : proto ∈ PROTOS

theorem Fixed.seen_eq (h : Fixed b raw host port proto) :
    seen b raw = some ⟨host, some port, proto⟩ := by
  have hne := proto_ne_nil h.proto
  have hrow : row ⟨host, some port.val, some proto⟩ = ⟨host, some port.val, proto⟩ := by
    cases proto with
    | nil => exact absurd rfl hne
    | cons c s => rfl
  rw [seen, h.eq, readTarget_entry h.notMem (proto_notMem h.proto) h.nonneg, Option.map_some, hrow,
    Browser.readRow, Option.bind_some, h.exact, if_neg hne]

theorem Fixed.hostInfo_eq (h : Fixed b raw host port proto) :
    hostInfo ⟨host, some port, proto⟩ = some raw := by
  refine hostInfo_eq_some_iff.mpr ⟨port, rfl, ?_, proto, h.proto, ?_, ?_⟩
  · rw [h.unpadded]
    exact h.ne_nil
  · rw [if_neg (proto_ne_nil h.proto), lower_strip_proto h.proto]
  · rw [h.unpadded, h.eq]

/-- The entries that come back as they were are exactly these. -/
theorem seen_hostInfo_iff :
    (∃ t, seen b raw = some t ∧ hostInfo t = some raw) ↔
      ∃ host port proto, Fixed b raw host port proto := by
  constructor
  · rintro ⟨t, hseen, hinfo⟩
    obtain ⟨t', ht', rfl⟩ := Option.map_eq_some_iff.mp hseen
    obtain ⟨port, hport, hne, proto, hproto, -, hraw⟩ := hostInfo_eq_some_iff.mp hinfo
    change t'.port.bind b.parseInt = some port at hport
    change raw = entry (Text.strip t'.host) port.val proto at hraw
    change Text.strip t'.host ≠ [] at hne
    have hsep : ';' ∉ Text.strip t'.host := fun h ↦ notMem_host ht' (Text.mem_of_mem_strip h)
    obtain ⟨n, hn, hparse⟩ := Option.bind_eq_some_iff.mp hport
    by_cases hneg : port.val < 0
    · -- A negative port would not have been read.
      have hread := readTarget_entry_of_neg hsep (proto_notMem hproto) hneg
      rw [← hraw, ht'] at hread
      rw [Option.some.inj hread] at hn
      cases hn
    · have hread := readTarget_entry hsep (proto_notMem hproto) (Int.not_lt.mp hneg)
      rw [← hraw, ht'] at hread
      rw [Option.some.inj hread] at hn
      cases hn
      have hhost : t'.host = Text.strip t'.host := congrArg Target.host (Option.some.inj hread)
      rw [← hhost] at hraw hne hsep
      exact ⟨_, port, proto, hraw, hne, hhost.symm, hsep, Int.not_lt.mp hneg, hparse, hproto⟩
  · rintro ⟨host, port, proto, h⟩
    exact ⟨_, h.seen_eq, h.hostInfo_eq⟩

/-- The rows of these targets are found in the panel as they were written. -/
def Browser.Shown (b : Browser) (host_info : List Text) : Prop :=
  ∀ targets, readTargets host_info = some targets → b.html (targets.map row) = targets.map row

/-- This is so when there is nothing in the entries that HTML takes for something else. -/
theorem shown_of_plain {host_info : List Text} (h : ∀ raw ∈ host_info, Plain raw) :
    b.Shown host_info := by
  intro targets htargets
  apply b.html_plain
  intro r hr
  obtain ⟨t, ht, rfl⟩ := List.mem_map.mp hr
  obtain ⟨raw, hraw, hread⟩ := (mem_of_mapM htargets).mp ht
  have hpart : ∀ part ∈ Text.split ';' raw, Plain part := fun part hpart c hc ↦
    h raw hraw c (Text.mem_of_mem_split hpart c hc)
  refine ⟨hpart _ (host_mem_split hread), ?_⟩
  have hudp : Plain "udp".toList := plain_of_all (by decide)
  have hproto : ∀ proto, t.proto = some proto → Plain proto := fun proto ht ↦
    hpart proto (List.mem_of_getElem? ((parts_of_readTarget hread).2 ▸ ht))
  rw [row]
  cases ht : t.proto with
  | none => exact hudp
  | some proto =>
      cases proto with
      | nil => exact hudp
      | cons c proto => exact hproto (c :: proto) ht

theorem rows_eq {host_info : List Text} (h : b.Shown host_info) :
    (b.rows host_info).map (List.map b.readRow) = host_info.mapM (seen b) := by
  have hseen : host_info.mapM (seen b) =
      (readTargets host_info).map (List.map fun t ↦ b.readRow (row t)) :=
    mapM_map readTarget _ host_info
  rw [hseen, Browser.rows, Option.map_map]
  cases hread : readTargets host_info with
  | none => rfl
  | some targets =>
      rw [Option.map_some, Option.map_some, Function.comp_apply, h targets hread, List.map_map]
      rfl

/-- What a click on a row's button does, by what the panel reads of the entries. -/
theorem removeTarget_eq {host_info : List Text} (h : b.Shown host_info) (i : ℕ) :
    b.removeTarget host_info host_info i = (host_info.mapM (seen b)).bind fun hosts ↦
      hosts[i]?.bind fun drop ↦
        (hosts.filter fun t ↦ !Browser.sameTarget t drop).mapM hostInfo := by
  rw [← rows_eq h, Browser.removeTarget, Browser.rows]
  cases hread : readTargets host_info with
  | none => rfl
  | some targets =>
      simp only [Option.map_some, Option.bind_eq_bind, Option.bind_some, List.getElem?_map,
        setForwardingHosts, hread]
      cases (b.html (targets.map row))[i]? with
      | none => rfl
      | some tr => rfl

/-- An entry names a host and a port, as far as the panel can tell. -/
def Names (b : Browser) (raw host : Text) (port : JsInt) : Prop :=
  ∃ digits rest n, Text.split ';' raw = host :: digits :: rest ∧ Text.isdigit digits = true ∧
    Text.int? digits = some n ∧ b.parseInt n = some port

theorem names_iff : Names b raw host port ↔
    ∃ t, seen b raw = some t ∧ t.host = host ∧ t.port = some port := by
  constructor
  · rintro ⟨digits, rest, n, hsplit, hdigit, hint, hparse⟩
    refine ⟨b.readRow (row ⟨host, some n, rest[0]?⟩), ?_, rfl, hparse⟩
    rw [seen, readTarget, hsplit]
    simp only [List.headD_cons, List.getElem?_cons_succ, List.getElem?_cons_zero, hdigit, if_true,
      hint, Option.map_some]
  · rintro ⟨t, hseen, rfl, hport⟩
    obtain ⟨t', ht', rfl⟩ := Option.map_eq_some_iff.mp hseen
    obtain ⟨n, hn, hparse⟩ := Option.bind_eq_some_iff.mp hport
    change t'.port = some n at hn
    unfold readTarget at ht'
    dsimp only at ht'
    cases hsplit : Text.split ';' raw with
    | nil =>
        rw [hsplit] at ht'
        cases ht'
        cases hn
    | cons part parts =>
        cases parts with
        | nil =>
            rw [hsplit] at ht'
            cases ht'
            cases hn
        | cons digits rest =>
            rw [hsplit] at ht'
            simp only [List.headD_cons, List.getElem?_cons_succ, List.getElem?_cons_zero] at ht'
            split at ht'
            · rename_i hdigit
              obtain ⟨m, hm, rfl⟩ := Option.map_eq_some_iff.mp ht'
              cases hn
              exact ⟨digits, rest, n, hsplit, hdigit, hm, hparse⟩
            · cases ht'
              cases hn

theorem sameTarget_eq_false {t drop : Host} {p : JsInt} (hdrop : drop.port = some p) :
    (!Browser.sameTarget t drop) = true ↔ ¬ (t.host = drop.host ∧ t.port = some p) := by
  rw [Browser.sameTarget, hdrop, Bool.not_eq_true', Bool.and_eq_false_iff, Bool.and_eq_false_iff,
    decide_eq_false_iff_not, decide_eq_false_iff_not]
  cases t.port with
  | none => simp
  | some q => simp [imp_iff_not_or]

/-- An entry stands alone: its port can be read, and every other entry comes back as it was and
names another host or another port. -/
def Alone (b : Browser) (host_info : List Text) (i : ℕ) : Prop :=
  ∃ raw host port, host_info[i]? = some raw ∧ Names b raw host port ∧
    ∀ j raw', j ≠ i → host_info[j]? = some raw' →
      ∃ host' port' proto', Fixed b raw' host' port' proto' ∧ ¬ (host' = host ∧ port' = port)

/-- A row of which nothing else is known than that its port cannot be read drops no row. -/
theorem sameTarget_of_port_eq_none {t drop : Host} (hdrop : drop.port = none) :
    (!Browser.sameTarget t drop) = true := by
  rw [Browser.sameTarget, hdrop]
  cases t.port <;> simp

/-- Every entry of such a list is shown with a row. -/
theorem Alone.exists_seen {host_info : List Text} {i : ℕ} (h : Alone b host_info i) :
    ∀ raw ∈ host_info, ∃ t, seen b raw = some t := by
  obtain ⟨raw, host, port, hraw, hnames, hothers⟩ := h
  intro x hx
  obtain ⟨j, hj⟩ := List.mem_iff_getElem?.mp hx
  by_cases hji : j = i
  · rw [hji, hraw] at hj
    cases hj
    obtain ⟨t, ht, -⟩ := names_iff.mp hnames
    exact ⟨t, ht⟩
  · obtain ⟨_, _, _, hfixed, -⟩ := hothers j x hji hj
    exact ⟨_, hfixed.seen_eq⟩

/-- A row whose port can be read drops itself. -/
theorem sameTarget_self {t : Host} : (!Browser.sameTarget t t) = true ↔ t.port = none := by
  constructor
  · intro hkeep
    cases hport : t.port with
    | none => rfl
    | some p => exact absurd ⟨rfl, hport⟩ ((sameTarget_eq_false hport).mp hkeep)
  · exact sameTarget_of_port_eq_none

/-- By the targets that the panel reads of the entries. -/
theorem alone_iff {host_info : List Text} {hosts : List Host}
    (hhosts : host_info.mapM (seen b) = some hosts) {i : ℕ} {raw : Text} {drop : Host}
    (hraw : host_info[i]? = some raw) (hdrop : hosts[i]? = some drop) :
    (hosts.filter fun t ↦ !Browser.sameTarget t drop).mapM hostInfo =
      some (host_info.eraseIdx i) ↔ Alone b host_info i := by
  have hown : seen b raw = some drop := by
    obtain ⟨t, ht, hget⟩ := exists_read_of_mapM hhosts hraw
    rw [hdrop] at hget
    cases hget
    exact ht
  rw [mapM_filter_eq_eraseIdx_iff hhosts hdrop fun hkeep _ _ ↦
    sameTarget_of_port_eq_none (sameTarget_self.mp hkeep)]
  constructor
  · rintro ⟨hself, hothers⟩
    cases hport : drop.port with
    | none => exact absurd (sameTarget_self.mpr hport) (Bool.eq_false_iff.mp hself)
    | some p =>
        refine ⟨raw, drop.host, p, hraw, names_iff.mpr ⟨_, hown, rfl, hport⟩,
          fun j raw' hj hraw' ↦ ?_⟩
        obtain ⟨t, ht, hkeep, hinfo⟩ := hothers j raw' hj hraw'
        obtain ⟨host', port', proto', hfixed⟩ := seen_hostInfo_iff.mp ⟨t, ht, hinfo⟩
        rw [hfixed.seen_eq] at ht
        cases ht
        refine ⟨host', port', proto', hfixed, fun hsame ↦ ?_⟩
        exact (sameTarget_eq_false hport).mp hkeep ⟨hsame.1, congrArg some hsame.2⟩
  · rintro ⟨raw', host, port, hraw', hnames, hothers⟩
    rw [hraw] at hraw'
    cases hraw'
    obtain ⟨t, ht, rfl, hport⟩ := names_iff.mp hnames
    rw [hown] at ht
    cases ht
    refine ⟨Bool.eq_false_iff.mpr fun hkeep ↦ ?_, fun j raw' hj hraw' ↦ ?_⟩
    · rw [sameTarget_self.mp hkeep] at hport
      cases hport
    · obtain ⟨host', port', proto', hfixed, hne⟩ := hothers j raw' hj hraw'
      refine ⟨_, hfixed.seen_eq, (sameTarget_eq_false hport).mpr ?_, hfixed.hostInfo_eq⟩
      rintro ⟨hhost, hp⟩
      exact hne ⟨hhost, Option.some.inj hp⟩

/-- In a panel that shows what the router holds. -/
theorem removeTarget_self_iff {host_info : List Text} (h : b.Shown host_info) {i : ℕ}
    (hi : i < host_info.length) :
    b.removeTarget host_info host_info i = some (host_info.eraseIdx i) ↔ Alone b host_info i := by
  rw [removeTarget_eq h]
  cases hhosts : host_info.mapM (seen b) with
  | none =>
      refine iff_of_false ?_ fun halone ↦ ?_
      · intro hsome
        cases hsome
      · obtain ⟨hosts, hsome⟩ := exists_mapM halone.exists_seen
        rw [hhosts] at hsome
        cases hsome
  | some hosts =>
      have hlt : i < hosts.length := length_of_mapM hhosts ▸ hi
      have hdrop : hosts[i]? = some hosts[i] := List.getElem?_eq_getElem hlt
      rw [Option.bind_some, hdrop, Option.bind_some]
      exact alone_iff hhosts (List.getElem?_eq_getElem hi) hdrop

/-- A row is written back as this entry. -/
def Browser.Writes (b : Browser) (r : Row) (e : Text) : Prop := hostInfo (b.readRow r) = some e

/-- The rows that a removal keeps: those of another host or another port. -/
def Browser.others (b : Browser) (rows : List Row) (tr : Row) : List Row :=
  rows.filter fun r ↦ !Browser.sameTarget (b.readRow r) (b.readRow tr)

/-- A row can be removed: the router's entries can be read, and without the `i`-th they are what
the other rows of the panel are written back as, in their order. -/
def Removable (b : Browser) (shown held : List Text) (i : ℕ) : Prop :=
  (∃ targets, readTargets held = some targets) ∧ ∃ rows tr, b.rows shown = some rows ∧
    rows[i]? = some tr ∧ List.Forall₂ b.Writes (b.others rows tr) (held.eraseIdx i)

theorem setForwardingHosts_eq_some_iff {held out : List Text} {hosts : List Host} :
    setForwardingHosts held hosts = some out ↔
      (∃ targets, readTargets held = some targets) ∧
        List.Forall₂ (fun t e ↦ hostInfo t = some e) hosts out := by
  rw [setForwardingHosts, Option.bind_eq_some_iff, mapM_eq_some_iff_forall₂, exists_and_right]

theorem removeTarget_iff {shown held : List Text} {i : ℕ} :
    b.removeTarget shown held i = some (held.eraseIdx i) ↔ Removable b shown held i := by
  rw [Browser.removeTarget, Removable]
  simp only [Option.bind_eq_bind, Option.bind_eq_some_iff, setForwardingHosts_eq_some_iff,
    List.filter_map, List.forall₂_map_left_iff]
  constructor
  · rintro ⟨rows, hrows, tr, htr, hread, hwrites⟩
    exact ⟨hread, rows, tr, hrows, htr, hwrites⟩
  · rintro ⟨hread, rows, tr, hrows, htr, hwrites⟩
    exact ⟨rows, hrows, tr, htr, hread, hwrites⟩

/-- The backend accepts the target. -/
def Inputs.Accepted (x : Inputs) : Prop := ∃ e, hostInfo x.target = some e

/-- The target comes back as one entry: its host is a single part without blanks around it, and
its port is positive. -/
structure Inputs.Single (x : Inputs) : Prop where
  notMem : ';' ∉ x.trimmed
  unpadded : Text.strip x.trimmed = x.trimmed
  pos : ∃ port, x.port = some port ∧ 0 < port.val

/-- A target can be added: the router's entries can be read, they are what the rows of the panel
are written back as, and the target comes back as one more. -/
def Addable (b : Browser) (shown held : List Text) (x : Inputs) : Prop :=
  (∃ targets, readTargets held = some targets) ∧
    (∃ rows, b.rows shown = some rows ∧ List.Forall₂ b.Writes rows held) ∧ x.Single

/-- The target is added: the list is PUT with one more entry, which reads as the target. -/
def Added (b : Browser) (shown held : List Text) (x : Inputs) : Prop :=
  ∃ e, b.addTarget shown held x = some (held ++ [e]) ∧
    readTarget e = some ⟨x.trimmed, x.port.map Subtype.val, some x.proto.val⟩

/-- What the backend makes of the target, when it accepts it. -/
theorem hostInfo_target_iff {x : Inputs} {e : Text} :
    hostInfo x.target = some e ↔ ∃ port, x.port = some port ∧ Text.strip x.trimmed ≠ [] ∧
      e = entry (Text.strip x.trimmed) port.val x.proto.val := by
  have hproto : lower (Text.strip (if x.proto.val = [] then "udp".toList else x.proto.val)) =
      x.proto.val := by
    rw [if_neg (proto_ne_nil x.proto.property), lower_strip_proto x.proto.property]
  rw [hostInfo_eq_some_iff]
  constructor
  · rintro ⟨port, hport, hne, proto, -, hlower, rfl⟩
    rw [← hlower]
    exact ⟨port, hport, hne, congrArg (entry (Text.strip x.trimmed) port.val) hproto⟩
  · rintro ⟨port, hport, hne, rfl⟩
    exact ⟨port, hport, hne, x.proto.val, x.proto.property, hproto, rfl⟩

/-- The entry of a target reads as the target in exactly this case. -/
theorem readTarget_target_iff {x : Inputs} {e : Text} (he : hostInfo x.target = some e)
    (hpos : ∀ port, x.port = some port → port.val ≠ 0) :
    readTarget e = some ⟨x.trimmed, x.port.map Subtype.val, some x.proto.val⟩ ↔ x.Single := by
  obtain ⟨port, hport, -, rfl⟩ := hostInfo_target_iff.mp he
  have hproto := proto_notMem x.proto.property
  constructor
  · intro hback
    have hsep : ';' ∉ x.trimmed := notMem_host hback
    have hsep' : ';' ∉ Text.strip x.trimmed := fun hm ↦ hsep (Text.mem_of_mem_strip hm)
    by_cases hneg : port.val < 0
    · rw [readTarget_entry_of_neg hsep' hproto hneg, hport] at hback
      cases congrArg Target.port (Option.some.inj hback)
    · rw [readTarget_entry hsep' hproto (Int.not_lt.mp hneg)] at hback
      exact ⟨hsep, congrArg Target.host (Option.some.inj hback), port, hport,
        lt_of_le_of_ne (Int.not_lt.mp hneg) (hpos port hport).symm⟩
  · rintro ⟨hsep, hstrip, port', hport', hlt⟩
    rw [hport] at hport'
    cases hport'
    rw [hstrip, hport]
    exact readTarget_entry hsep hproto hlt.le

theorem addTarget_iff {shown held : List Text} {x : Inputs} (hx : x.Accepted) :
    Added b shown held x ↔ Addable b shown held x := by
  obtain ⟨e, he⟩ := hx
  obtain ⟨port, hport, hne, -⟩ := hostInfo_target_iff.mp he
  have hnil : x.trimmed ≠ [] := by
    intro hnil
    rw [hnil] at hne
    exact hne rfl
  have hput : ∀ out, b.addTarget shown held x = some out ↔ ∃ rows, b.rows shown = some rows ∧
      port.val ≠ 0 ∧ setForwardingHosts held (rows.map b.readRow ++ [x.target]) = some out := by
    intro out
    simp only [Browser.addTarget, Inputs.target, hport, Option.bind_eq_bind, Option.bind_some,
      Option.bind_eq_some_iff, hnil, false_or, Option.ite_none_left_eq_some]
  have hlast : ∀ rows e', List.Forall₂ (fun t e ↦ hostInfo t = some e)
      (rows.map b.readRow ++ [x.target]) (held ++ [e']) ↔
        List.Forall₂ b.Writes rows held ∧ e' = e := by
    intro rows e'
    rw [forall₂_concat_iff, List.forall₂_map_left_iff, he, Option.some_inj, eq_comm (a := e)]
    rfl
  simp only [Added, Addable, hput, setForwardingHosts_eq_some_iff, hlast]
  constructor
  · rintro ⟨e', ⟨rows, hrows, hpos, hread, hwrites, rfl⟩, hback⟩
    refine ⟨hread, ⟨rows, hrows, hwrites⟩, (readTarget_target_iff he fun p hp ↦ ?_).mp hback⟩
    rw [hport] at hp
    cases hp
    exact hpos
  · rintro ⟨hread, ⟨rows, hrows, hwrites⟩, hsingle⟩
    obtain ⟨p, hp, hlt⟩ := hsingle.pos
    have hpos : ∀ p, x.port = some p → p.val ≠ 0 := by
      intro p' hp'
      rw [hp] at hp'
      cases hp'
      exact hlt.ne'
    exact ⟨e, ⟨rows, hrows, hpos port hport, hread, hwrites, rfl⟩,
      (readTarget_target_iff he hpos).mpr hsingle⟩

/-- In a panel that shows what the router holds, each entry has to come back as it was. -/
theorem addable_self_iff {host_info : List Text} (h : b.Shown host_info) {x : Inputs} :
    Addable b host_info host_info x ↔
      (∀ raw ∈ host_info, ∃ host port proto, Fixed b raw host port proto) ∧ x.Single := by
  have hseen : (∃ rows, b.rows host_info = some rows ∧ List.Forall₂ b.Writes rows host_info) ↔
      ∃ hosts, host_info.mapM (seen b) = some hosts ∧
        List.Forall₂ (fun t e ↦ hostInfo t = some e) hosts host_info := by
    simp only [← rows_eq h, Option.map_eq_some_iff, exists_exists_and_eq_and,
      List.forall₂_map_left_iff]
    rfl
  have hrows : (∃ rows, b.rows host_info = some rows ∧ List.Forall₂ b.Writes rows host_info) ↔
      ∀ raw ∈ host_info, ∃ host port proto, Fixed b raw host port proto := by
    simp only [hseen, ← seen_hostInfo_iff]
    constructor
    · rintro ⟨hosts, hread, hwrites⟩
      exact (forall₂_mapM_iff hread).mp hwrites
    · intro hback
      obtain ⟨hosts, hread⟩ := exists_mapM fun raw hraw ↦ (hback raw hraw).imp fun _ ↦ And.left
      exact ⟨hosts, hread, (forall₂_mapM_iff hread).mpr hback⟩
  rw [Addable, hrows, ← and_assoc]
  refine and_congr_left fun _ ↦ and_iff_right_of_imp fun hfixed ↦ ?_
  exact exists_mapM fun raw hraw ↦ by
    obtain ⟨host, port, proto, hraw⟩ := hfixed raw hraw
    rw [hraw.eq]
    exact ⟨_, readTarget_entry hraw.notMem (proto_notMem hraw.proto) hraw.nonneg⟩

/-- An edit of one target leaves the others alone in exactly these cases.  Where the panel shows
the list that the router holds, and HTML takes nothing in it for something else, it is the
entries one by one that have to come back, and to differ from the one that is removed. -/
theorem edit_keeps_others_iff (b : Browser) (shown held : List Text) :
    (∀ i, b.removeTarget shown held i = some (held.eraseIdx i) ↔ Removable b shown held i) ∧
      (∀ x : Inputs, x.Accepted → (Added b shown held x ↔ Addable b shown held x)) ∧
      ((∀ raw ∈ held, Plain raw) →
        (∀ i < held.length, Removable b held held i ↔ Alone b held i) ∧
          ∀ x : Inputs, Addable b held held x ↔
            (∀ raw ∈ held, ∃ host port proto, Fixed b raw host port proto) ∧ x.Single) := by
  refine ⟨fun i ↦ removeTarget_iff, fun x hx ↦ addTarget_iff hx, fun hplain ↦ ?_⟩
  have hshown := shown_of_plain (b := b) hplain
  refine ⟨fun i hi ↦ ?_, fun x ↦ addable_self_iff hshown⟩
  rw [← removeTarget_iff]
  exact removeTarget_self_iff hshown hi

end Around

/-! ## Two targets on one host -/

/-- A browser that shows every row as it was written, and keeps the integers that a `Number`
holds exactly. -/
def plainBrowser : Browser where
  html rows := rows
  parseInt n :=
    if h : n.natAbs ≤ 2 ^ 53 then some ⟨n, lt_of_le_of_lt h (by decide)⟩ else none
  html_plain _ _ := rfl
  parseInt_exact _ h := dif_pos h

/-- Two targets on two hosts. -/
def pair : List Text := ["10.0.0.1;8500;udp".toList, "10.0.0.2;8500;tcp".toList]

theorem edit_keeps_others_iff_pair :
    plainBrowser.removeTarget pair pair 0 = some ["10.0.0.2;8500;tcp".toList] := by
  have hplain : ∀ raw ∈ pair, Plain raw :=
    List.forall_mem_cons.mpr ⟨plain_of_all (by decide),
      List.forall_mem_singleton.mpr (plain_of_all (by decide))⟩
  obtain ⟨hremove, -, hself⟩ := edit_keeps_others_iff plainBrowser pair pair
  refine (hremove 0).mpr (((hself hplain).1 0 (by decide)).mpr ⟨_, "10.0.0.1".toList,
    ⟨8500, by decide⟩, rfl, ⟨"8500".toList, ["udp".toList], 8500, by decide +kernel⟩,
    fun j raw hj hraw ↦ ?_⟩)
  have hj1 : j = 1 := by
    have hlt := (List.getElem?_eq_some_iff.mp hraw).1
    change j < 2 at hlt
    omega
  subst hj1
  cases hraw
  exact ⟨"10.0.0.2".toList, ⟨8500, by decide⟩, "tcp".toList,
    ⟨rfl, by decide, by decide, by decide, by decide, by decide, by decide⟩, by decide⟩

/-- Two targets on one host and port. -/
def twins : List Text := ["10.0.0.1;8500;udp".toList, "10.0.0.1;8500;tcp".toList]

/-- Two targets, after a third one was removed that the panel still shows. -/
def remaining : List Text := ["10.0.0.2;8500;udp".toList, "10.0.0.3;8500;udp".toList]

/-- A target whose host has a quotation mark, which ends the attribute that it stands in. -/
def quoted : List Text := ["a\"b;8500;udp".toList, "10.0.0.2;8500;tcp".toList]

/-- A browser for hosts that have such a mark. -/
def quotingBrowser : Browser where
  html rows := rows.map fun r ↦ { r with host := r.host.takeWhile (· ≠ '"') }
  parseInt := plainBrowser.parseInt
  html_plain rows h := by
    refine (List.map_congr_left fun r hr ↦ ?_).trans (List.map_id rows)
    have hhost : r.host.takeWhile (· ≠ '"') = r.host := List.takeWhile_eq_self_iff.mpr fun c hc ↦
      decide_eq_true fun hquote ↦ (h r hr).1 c hc (hquote ▸ List.mem_cons_self)
    rw [hhost]
    rfl
  parseInt_exact := plainBrowser.parseInt_exact

/-- Removing the first of the twins drops the second, too; a panel that still shows a target that
was removed brings it back; and a quotation mark cuts the host of another target. -/
theorem other_proto_dropped :
    (plainBrowser.removeTarget twins twins 0 = some [] ∧
      twins.eraseIdx 0 = ["10.0.0.1;8500;tcp".toList]) ∧
    (plainBrowser.removeTarget ("10.0.0.1;8500;udp".toList ::
        remaining) remaining 1 =
        some ["10.0.0.1;8500;udp".toList, "10.0.0.3;8500;udp".toList] ∧
      remaining.eraseIdx 1 = ["10.0.0.2;8500;udp".toList]) ∧
    quotingBrowser.removeTarget quoted quoted 1 = some ["a;8500;udp".toList] ∧
      quoted.eraseIdx 1 = ["a\"b;8500;udp".toList] := by
  decide +kernel

end Ui

end SensorFusion
