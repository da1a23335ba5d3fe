import SensorFusion.Apex.Connection
import SensorFusion.Lib.Cutting
import SensorFusion.Wire.Codec
import Mathlib.Data.List.TakeWhile

/-!
# Reading the messages of a connection

A socket delivers its bytes in pieces, of whatever lengths.  `receive_size_prefixed` and
`receive_until` put them together again in a buffer that is kept from call to call, and take
one message off its front.  `read_to_channel` calls one of the two, by the format of the
connection, until it raises.

What is read depends on the bytes alone and not on the pieces: each of the two does what a
cutter does that has all the bytes in hand.  For `receive_until` this says that it need not
look for the delimiter again where it has looked before.
-/

namespace SensorFusion

namespace Apex

open Wire (Bytes)

/-! ## The stream -/

/-- What one `receive_some` returns: some bytes. -/
abbrev Chunk := { chunk : Bytes // chunk ≠ [] }

/-- How a stream ends: the other side closes it, or `receive_some` raises. -/
inductive Ending
  | closed
  | broken (text : String)
  deriving DecidableEq

/-- What the two functions raise. -/
inductive ReadError
  | EOFError
  | tooLong (pending : Bool) (length max_size : ℕ)
  | broken (text : String)
  deriving DecidableEq

/-- The text of a `RuntimeError`. -/
def ReadError.text : ReadError → String
  | .EOFError => ""
  | .tooLong true length max_size =>
      "Message too long (pending " ++ toString length ++ " > " ++ toString max_size ++ ")"
  | .tooLong false length max_size =>
      "Message too long (" ++ toString length ++ " > " ++ toString max_size ++ ")"
  | .broken text => text

/-- The two texts aside, a message that is too long is a message that is too long. -/
def ReadError.isTooLong : ReadError → Bool
  | .tooLong _ _ _ => true
  | _ => false

/-- `if not more_data: raise EOFError()`, when there is nothing more. -/
def Ending.raised : Ending → ReadError
  | .closed => .EOFError
  | .broken text => .broken text

/-- A stream with what it will still deliver, and `read_buffer`. -/
structure Reading where
  chunks : List Chunk
  ending : Ending
  read_buffer : Bytes
  deriving DecidableEq

/-- All the bytes that have not been taken off as messages. -/
def Reading.whole (r : Reading) : Bytes := r.read_buffer ++ r.chunks.flatMap Subtype.val

/-! ## `receive_size_prefixed` -/

/-- `while len(read_buffer) < size: …`.  False when the stream ends before. -/
def fill (size : ℕ) : List Chunk → Bytes → Bool × List Chunk × Bytes
  | [], read_buffer => (size ≤ read_buffer.length, [], read_buffer)
  | more_data :: chunks, read_buffer =>
      if size ≤ read_buffer.length then (true, more_data :: chunks, read_buffer)
      else fill size chunks (read_buffer ++ more_data.val)

def Reading.fill (r : Reading) (size : ℕ) : Bool × Reading :=
  let (filled, chunks, read_buffer) := Apex.fill size r.chunks r.read_buffer
  (filled, { r with chunks := chunks, read_buffer := read_buffer })

/-- `del read_buffer[:length]`. -/
def Reading.delete (r : Reading) (length : ℕ) : Reading :=
  { r with read_buffer := r.read_buffer.drop length }

/-- `receive_size_prefixed`. -/
def receive_size_prefixed (max_size : ℕ) (r : Reading) : Except ReadError Bytes × Reading :=
  match r.fill 4 with
  | (false, r) => (.error r.ending.raised, r)
  | (true, r) =>
      let message_len := Wire.header.unpack (r.read_buffer.take 4)
      if message_len > max_size then (.error (.tooLong false message_len max_size), r)
      else
        match (r.delete 4).fill message_len with
        | (false, r) => (.error r.ending.raised, r)
        | (true, r) => (.ok (r.read_buffer.take message_len), r.delete message_len)

/-! ## `receive_until` -/

/-- `bytearray.find(sub, start)`. -/
def find (buffer sub : Bytes) (start : ℕ) : Option ℕ :=
  (List.range' start (buffer.length + 1 - start)).find? fun i ↦ sub <+: buffer.drop i

/-- The loop of `receive_until`: where the delimiter is, or what is raised. -/
def search (delimiter : Bytes) (max_size : ℕ) (ending : Ending) :
    List Chunk → Bytes → ℕ → Except ReadError ℕ × List Chunk × Bytes
  | chunks, read_buffer, next_find_index =>
      match find read_buffer delimiter next_find_index with
      | some terminator_index => (.ok terminator_index, chunks, read_buffer)
      | none =>
          if read_buffer.length > max_size then
            (.error (.tooLong true read_buffer.length max_size), chunks, read_buffer)
          else
            match chunks with
            | [] => (.error ending.raised, [], read_buffer)
            | more_data :: chunks =>
                search delimiter max_size ending chunks (read_buffer ++ more_data.val)
                  (read_buffer.length + 1 - delimiter.length)

/-- `receive_until`. -/
def receive_until (delimiter : Bytes) (max_size : ℕ) (return_delimiter : Bool) (r : Reading) :
    Except ReadError Bytes × Reading :=
  let max_size := max_size + delimiter.length
  match search delimiter max_size r.ending r.chunks r.read_buffer 0 with
  | (.error e, chunks, read_buffer) =>
      (.error e, { r with chunks := chunks, read_buffer := read_buffer })
  | (.ok terminator_index, chunks, read_buffer) =>
      let r := { r with chunks := chunks, read_buffer := read_buffer }
      let message_len := terminator_index + delimiter.length
      if message_len > max_size then (.error (.tooLong false message_len max_size), r)
      else
        (.ok (r.read_buffer.take (if return_delimiter then message_len else terminator_index)),
          r.delete message_len)

/-! ## `read_to_channel` -/

/-- The function that a connection reads with. -/
def receive_fn (format : MessageFormat) (max_size : ℕ) :
    Reading → Except ReadError Bytes × Reading :=
  if format = .PROTO then receive_size_prefixed max_size else receive_until [0] max_size true

/-- What `read_to_channel` puts on the channel, and what it raises and leaves in the buffer
then: at most `n` messages are read. -/
def read_to_channel (receive : Reading → Except ReadError Bytes × Reading) :
    ℕ → Reading → List Bytes × Option (ReadError × Reading)
  | 0, _ => ([], none)
  | n + 1, r =>
      match receive r with
      | (.error e, r) => ([], some (e, r))
      | (.ok message, r) =>
          ((read_to_channel receive n r).1.cons message, (read_to_channel receive n r).2)

/-! ## With all the bytes in hand -/

theorem fill_spec {size : ℕ} {chunks : List Chunk} {read_buffer : Bytes} {filled : Bool}
    {chunks' : List Chunk} {read_buffer' : Bytes}
    (h : fill size chunks read_buffer = (filled, chunks', read_buffer')) :
    read_buffer' ++ chunks'.flatMap Subtype.val = read_buffer ++ chunks.flatMap Subtype.val ∧
      (filled = true → size ≤ read_buffer'.length) ∧
      (filled = false → chunks' = [] ∧ read_buffer'.length < size) := by
  induction chunks generalizing read_buffer with
  | nil =>
      rw [fill] at h
      cases h
      exact ⟨rfl, of_decide_eq_true, fun h ↦ ⟨rfl, not_le.mp (of_decide_eq_false h)⟩⟩
  | cons more_data chunks ih =>
      rw [fill] at h
      split at h
      · rename_i hsize
        cases h
        exact ⟨rfl, fun _ ↦ hsize, fun h ↦ nomatch h⟩
      · obtain ⟨hwhole, hrest⟩ := ih h
        refine ⟨?_, hrest⟩
        rw [hwhole, List.flatMap_cons, List.append_assoc]

/-- Enough bytes are put together, if there are so many. -/
theorem Reading.fill_of_le {r : Reading} {size : ℕ} (h : size ≤ r.whole.length) :
    ∃ r', r.fill size = (true, r') ∧ r'.whole = r.whole ∧ r'.ending = r.ending ∧
      size ≤ r'.read_buffer.length := by
  obtain ⟨⟨filled, chunks, read_buffer⟩, hfill⟩ :
      ∃ out, Apex.fill size r.chunks r.read_buffer = out := ⟨_, rfl⟩
  obtain ⟨hwhole, htrue, hfalse⟩ := fill_spec hfill
  cases filled with
  | true =>
      refine ⟨{ r with chunks := chunks, read_buffer := read_buffer }, ?_, hwhole, rfl, htrue rfl⟩
      rw [Reading.fill, hfill]
  | false =>
      obtain ⟨rfl, hlt⟩ := hfalse rfl
      rw [List.flatMap_nil, List.append_nil] at hwhole
      rw [Reading.whole, ← hwhole] at h
      exact absurd h (not_le.mpr hlt)

/-- The stream ends before there are enough bytes. -/
theorem Reading.fill_of_lt {r : Reading} {size : ℕ} (h : r.whole.length < size) :
    r.fill size = (false, { r with chunks := [], read_buffer := r.whole }) := by
  obtain ⟨⟨filled, chunks, read_buffer⟩, hfill⟩ :
      ∃ out, Apex.fill size r.chunks r.read_buffer = out := ⟨_, rfl⟩
  obtain ⟨hwhole, htrue, hfalse⟩ := fill_spec hfill
  cases filled with
  | true =>
      have hlen := congrArg List.length hwhole
      rw [List.length_append] at hlen
      have hle := htrue rfl
      rw [Reading.whole] at h
      omega
  | false =>
      obtain ⟨rfl, -⟩ := hfalse rfl
      rw [List.flatMap_nil, List.append_nil] at hwhole
      rw [Reading.fill, hfill, hwhole]
      rfl

theorem Reading.whole_delete {r : Reading} {length : ℕ} (h : length ≤ r.read_buffer.length) :
    (r.delete length).whole = r.whole.drop length := by
  rw [Reading.whole, Reading.whole, List.drop_append_of_le_length h]
  rfl

theorem Reading.take_whole {r : Reading} {length : ℕ} (h : length ≤ r.read_buffer.length) :
    r.whole.take length = r.read_buffer.take length := by
  rw [Reading.whole, List.take_append_of_le_length h]

/-- A message with its size in front. -/
def cutSized (max_size : ℕ) (s : Bytes) : Cut UInt8 ℕ :=
  if s.length < 4 then .more
  else
    let message_len := Wire.header.unpack (s.take 4)
    if message_len > max_size then .failed message_len
    else if s.length - 4 < message_len then .more
    else .message ((s.drop 4).take message_len) ((s.drop 4).drop message_len)

theorem cutSized_append {s t : Bytes} (h : ¬ s.length < 4) :
    (s ++ t).take 4 = s.take 4 ∧ (s ++ t).drop 4 = s.drop 4 ++ t :=
  ⟨List.take_append_of_le_length (not_lt.mp h), List.drop_append_of_le_length (not_lt.mp h)⟩

/-- `receive_size_prefixed` with all the bytes in hand. -/
def sized (max_size : ℕ) : Cutter UInt8 ℕ where
  cut := cutSized max_size
  shorter s m rest h := by
    unfold cutSized at h
    dsimp only at h
    split_ifs at h with h4
    cases h
    rw [List.length_drop, List.length_drop]
    omega
  message_append s m rest t h := by
    unfold cutSized at h ⊢
    dsimp only at h ⊢
    split_ifs at h with h4 hmax hlen
    cases h
    obtain ⟨htake, hdrop⟩ := cutSized_append (t := t) h4
    have hle : Wire.header.unpack (s.take 4) ≤ (s.drop 4).length := by
      rw [List.length_drop]
      omega
    rw [htake, hdrop, List.length_append, if_neg (by omega), if_neg hmax, if_neg (by omega),
      List.take_append_of_le_length hle, List.drop_append_of_le_length hle]
  failed_append s e t h := by
    unfold cutSized at h ⊢
    dsimp only at h ⊢
    split_ifs at h with h4 hmax
    cases h
    obtain ⟨htake, -⟩ := cutSized_append (t := t) h4
    rw [htake, List.length_append, if_neg (by omega), if_pos hmax]

/-- A function that reads from a stream in pieces does what the cutter does with all of it.
`left` is what is in the buffer when the stream has ended. -/
structure Follows {ε : Type*} (C : Cutter UInt8 ε) (left : Bytes → Bytes)
    (receive : Reading → Except ReadError Bytes × Reading) : Prop where
  message : ∀ r m rest, C.cut r.whole = .message m rest →
    ∃ r', receive r = (.ok m, r') ∧ r'.whole = rest ∧ r'.ending = r.ending
  more : ∀ r, C.cut r.whole = .more →
    receive r = (.error r.ending.raised, { r with chunks := [], read_buffer := left r.whole })
  failed : ∀ r e, C.cut r.whole = .failed e →
    ∃ e' r', receive r = (.error e', r') ∧ e'.isTooLong = true ∧ r'.whole = r.whole

/-- The size is taken off before the message is there. -/
def leftSized (s : Bytes) : Bytes := if s.length < 4 then s else s.drop 4

theorem receive_size_prefixed_of_short {max_size : ℕ} {r : Reading} (h : r.whole.length < 4) :
    receive_size_prefixed max_size r =
      (.error r.ending.raised, { r with chunks := [], read_buffer := r.whole }) := by
  rw [receive_size_prefixed, Reading.fill_of_lt h]

/-- After the size has been read, what is done is decided by it. -/
theorem receive_size_prefixed_of_size (max_size : ℕ) {r : Reading} (h : 4 ≤ r.whole.length) :
    ∃ r', r'.whole = r.whole ∧ r'.ending = r.ending ∧
      (r'.delete 4).whole = r.whole.drop 4 ∧
      receive_size_prefixed max_size r =
        let message_len := Wire.header.unpack (r.whole.take 4)
        if message_len > max_size then (.error (.tooLong false message_len max_size), r')
        else
          match (r'.delete 4).fill message_len with
          | (false, r) => (.error r.ending.raised, r)
          | (true, r) => (.ok (r.read_buffer.take message_len), r.delete message_len) := by
  obtain ⟨r', hfill, hwhole, hending, hsize⟩ := Reading.fill_of_le h
  refine ⟨r', hwhole, hending, ?_, ?_⟩
  · rw [Reading.whole_delete hsize, hwhole]
  · rw [receive_size_prefixed, hfill, ← hwhole, Reading.take_whole hsize]

theorem follows_sized (max_size : ℕ) :
    Follows (sized max_size) leftSized (receive_size_prefixed max_size) where
  message r m rest h := by
    change cutSized max_size r.whole = _ at h
    unfold cutSized at h
    dsimp only at h
    split_ifs at h with h4 hmax hlen
    cases h
    obtain ⟨r', -, hending, hdelete, hreceive⟩ :=
      receive_size_prefixed_of_size max_size (not_lt.mp h4)
    have hle : Wire.header.unpack (r.whole.take 4) ≤ (r'.delete 4).whole.length := by
      rw [hdelete, List.length_drop]
      omega
    obtain ⟨r'', hfill, hwhole'', hending'', hsize⟩ := Reading.fill_of_le hle
    dsimp only at hreceive
    rw [if_neg hmax, hfill] at hreceive
    refine ⟨r''.delete (Wire.header.unpack (r.whole.take 4)), ?_, ?_, hending''.trans hending⟩
    · rw [hreceive, ← hdelete, ← hwhole'', Reading.take_whole hsize]
    · rw [Reading.whole_delete hsize, hwhole'', hdelete]
  more r h := by
    change cutSized max_size r.whole = _ at h
    unfold cutSized at h
    dsimp only at h
    split_ifs at h with h4 hmax hlen
    · rw [receive_size_prefixed_of_short h4, leftSized, if_pos h4]
    · obtain ⟨r', -, hending, hdelete, hreceive⟩ :=
        receive_size_prefixed_of_size max_size (not_lt.mp h4)
      have hlt : (r'.delete 4).whole.length < Wire.header.unpack (r.whole.take 4) := by
        rw [hdelete, List.length_drop]
        exact hlen
      dsimp only at hreceive
      rw [if_neg hmax, Reading.fill_of_lt hlt, hdelete] at hreceive
      rw [hreceive, leftSized, if_neg h4, ← hending]
      rfl
  failed r e h := by
    change cutSized max_size r.whole = _ at h
    unfold cutSized at h
    dsimp only at h
    split_ifs at h with h4 hmax
    obtain ⟨r', hwhole, -, -, hreceive⟩ :=
      receive_size_prefixed_of_size max_size (not_lt.mp h4)
    dsimp only at hreceive
    rw [if_pos hmax] at hreceive
    exact ⟨_, r', hreceive, rfl, hwhole⟩

/-! ## Looking for a delimiter -/

theorem find_eq_some_iff {buffer sub : Bytes} {start i : ℕ} :
    find buffer sub start = some i ↔ start ≤ i ∧ i ≤ buffer.length ∧ sub <+: buffer.drop i ∧
      ∀ j, start ≤ j → j < i → ¬ sub <+: buffer.drop j := by
  rw [find, List.find?_range'_eq_some]
  simp only [decide_eq_true_eq, List.mem_range'_1, Bool.not_eq_eq_eq_not, Bool.not_true,
    decide_eq_false_iff_not]
  constructor
  · rintro ⟨hsub, ⟨hstart, hlt⟩, hfirst⟩
    exact ⟨hstart, by omega, hsub, hfirst⟩
  · rintro ⟨hstart, hle, hsub, hfirst⟩
    exact ⟨hsub, ⟨hstart, by omega⟩, hfirst⟩

theorem find_eq_none_iff {buffer sub : Bytes} {start : ℕ} :
    find buffer sub start = none ↔
      ∀ i, start ≤ i → i ≤ buffer.length → ¬ sub <+: buffer.drop i := by
  rw [find, List.find?_eq_none]
  simp only [decide_eq_true_eq, List.mem_range'_1]
  constructor
  · intro h i hstart hle
    exact h i ⟨hstart, by omega⟩
  · rintro h i ⟨hstart, hlt⟩
    exact h i hstart (by omega)

/-- An occurrence lies within the bytes that it is found in. -/
theorem add_length_le {buffer sub : Bytes} {i : ℕ} (hi : i ≤ buffer.length)
    (h : sub <+: buffer.drop i) : i + sub.length ≤ buffer.length := by
  have hle := h.length_le
  rw [List.length_drop] at hle
  omega

/-- More bytes make no occurrence where there is room for one already. -/
theorem isPrefix_drop_append {buffer sub more : Bytes} {i : ℕ}
    (h : i + sub.length ≤ buffer.length) :
    sub <+: (buffer ++ more).drop i ↔ sub <+: buffer.drop i := by
  rw [List.drop_append_of_le_length (by omega)]
  constructor
  · intro hsub
    refine List.prefix_of_prefix_length_le hsub (List.prefix_append _ _) ?_
    rw [List.length_drop]
    omega
  · intro hsub
    exact hsub.trans (List.prefix_append _ _)

/-- What is found stays the first occurrence. -/
theorem find_append {buffer sub : Bytes} {start i : ℕ} (more : Bytes)
    (h : find buffer sub start = some i) : find (buffer ++ more) sub start = some i := by
  obtain ⟨hstart, hle, hsub, hfirst⟩ := find_eq_some_iff.mp h
  have hend := add_length_le hle hsub
  refine find_eq_some_iff.mpr ⟨hstart, ?_, (isPrefix_drop_append hend).mpr hsub, ?_⟩
  · rw [List.length_append]
    omega
  · intro j hj hlt hj'
    exact hfirst j hj hlt ((isPrefix_drop_append (by omega)).mp hj')

/-- What is found only with more bytes ends behind those that there were. -/
theorem length_lt_of_find_append {buffer sub more : Bytes} {i : ℕ}
    (hnone : find buffer sub 0 = none) (h : find (buffer ++ more) sub 0 = some i) :
    buffer.length < i + sub.length := by
  obtain ⟨-, -, hsub, -⟩ := find_eq_some_iff.mp h
  by_contra hle
  have hroom : i + sub.length ≤ buffer.length := not_lt.mp hle
  exact find_eq_none_iff.mp hnone i (Nat.zero_le i) (by omega)
    ((isPrefix_drop_append hroom).mp hsub)

/-- Where it has been looked for, it need not be looked for again. -/
theorem find_resumed {buffer sub : Bytes} {start : ℕ}
    (h : ∀ j, j < start → ¬ sub <+: buffer.drop j) : find buffer sub start = find buffer sub 0 := by
  cases hfind : find buffer sub start with
  | none =>
      rw [eq_comm, find_eq_none_iff]
      intro i _ hle
      by_cases hi : i < start
      · exact h i hi
      · exact find_eq_none_iff.mp hfind i (not_lt.mp hi) hle
  | some i =>
      obtain ⟨hstart, hle, hsub, hfirst⟩ := find_eq_some_iff.mp hfind
      rw [eq_comm, find_eq_some_iff]
      refine ⟨Nat.zero_le i, hle, hsub, fun j _ hlt ↦ ?_⟩
      by_cases hj : j < start
      · exact h j hj
      · exact hfirst j (not_lt.mp hj) hlt

/-- A message with a delimiter behind it; `max_size` includes the delimiter. -/
def cutUntil (delimiter : Bytes) (max_size : ℕ) (return_delimiter : Bool) (s : Bytes) :
    Cut UInt8 Unit :=
  match find s delimiter 0 with
  | some terminator_index =>
      let message_len := terminator_index + delimiter.length
      if message_len > max_size then .failed ()
      else
        .message (s.take (if return_delimiter then message_len else terminator_index))
          (s.drop message_len)
  | none => if s.length > max_size then .failed () else .more

/-- `receive_until` with all the bytes in hand. -/
def ended (delimiter : Bytes) (hdelimiter : delimiter ≠ []) (max_size : ℕ)
    (return_delimiter : Bool) : Cutter UInt8 Unit where
  cut := cutUntil delimiter (max_size + delimiter.length) return_delimiter
  shorter s m rest h := by
    have hpos := List.length_pos_iff.mpr hdelimiter
    unfold cutUntil at h
    split at h
    · rename_i i hfind
      obtain ⟨-, hle, hsub, -⟩ := find_eq_some_iff.mp hfind
      have hend := add_length_le hle hsub
      dsimp only at h
      split_ifs at h <;>
      · cases h
        rw [List.length_drop]
        omega
    · split_ifs at h
  message_append s m rest t h := by
    unfold cutUntil at h ⊢
    split at h
    · rename_i i hfind
      obtain ⟨-, hle, hsub, -⟩ := find_eq_some_iff.mp hfind
      have hend := add_length_le hle hsub
      rw [find_append t hfind]
      dsimp only at h ⊢
      split at h
      · cases h
      · rename_i hmax
        cases h
        have htake : (if return_delimiter = true then i + delimiter.length else i) ≤ s.length := by
          split
          · exact hend
          · exact hle
        rw [if_neg hmax, List.take_append_of_le_length htake, List.drop_append_of_le_length hend]
    · split_ifs at h
  failed_append s e t h := by
    unfold cutUntil at h ⊢
    split at h
    · rename_i i hfind
      rw [find_append t hfind]
      dsimp only at h ⊢
      split_ifs at h with hmax
      rw [if_pos hmax]
    · rename_i hnone
      split_ifs at h with hmax
      split
      · rename_i i hfind
        have hbehind := length_lt_of_find_append hnone hfind
        dsimp only
        rw [if_pos (by omega)]
      · rw [if_pos (by rw [List.length_append]; omega)]

/-- How the loop of `receive_until` ends, where `whole` is all that there is to come. -/
inductive Searched (delimiter : Bytes) (max_size : ℕ) (ending : Ending) (whole : Bytes) :
    Except ReadError ℕ × List Chunk × Bytes → Prop
  | found {i : ℕ} {chunks : List Chunk} {read_buffer : Bytes}
      (hfind : find whole delimiter 0 = some i)
      (hwhole : read_buffer ++ chunks.flatMap Subtype.val = whole)
      (hend : i + delimiter.length ≤ read_buffer.length) :
      Searched delimiter max_size ending whole (.ok i, chunks, read_buffer)
  | pending {n : ℕ} {chunks : List Chunk} {read_buffer : Bytes}
      (hfind : ∀ i, find whole delimiter 0 = some i → max_size < i + delimiter.length)
      (hwhole : read_buffer ++ chunks.flatMap Subtype.val = whole)
      (hlength : max_size < whole.length) :
      Searched delimiter max_size ending whole
        (.error (.tooLong true n max_size), chunks, read_buffer)
  | ended (hfind : find whole delimiter 0 = none) (hlength : whole.length ≤ max_size) :
      Searched delimiter max_size ending whole (.error ending.raised, [], whole)

/-- The loop finds what one search through all the bytes finds. -/
theorem searched (delimiter : Bytes) (max_size : ℕ) (ending : Ending) (chunks : List Chunk)
    (read_buffer : Bytes) (next_find_index : ℕ)
    (hnext : ∀ j, j < next_find_index → ¬ delimiter <+: read_buffer.drop j) :
    Searched delimiter max_size ending (read_buffer ++ chunks.flatMap Subtype.val)
      (search delimiter max_size ending chunks read_buffer next_find_index) := by
  induction chunks generalizing read_buffer next_find_index with
  | nil =>
      rw [search, find_resumed hnext, List.flatMap_nil, List.append_nil]
      cases hfind : find read_buffer delimiter 0 with
      | some i =>
          obtain ⟨-, hle, hsub, -⟩ := find_eq_some_iff.mp hfind
          exact .found hfind (List.append_nil _) (add_length_le hle hsub)
      | none =>
          dsimp only
          split
          · rename_i hmax
            exact .pending (fun i hi ↦ by rw [hfind] at hi; cases hi) (List.append_nil _) hmax
          · rename_i hmax
            exact .ended hfind (not_lt.mp hmax)
  | cons more_data chunks ih =>
      rw [search, find_resumed hnext]
      cases hfind : find read_buffer delimiter 0 with
      | some i =>
          obtain ⟨-, hle, hsub, -⟩ := find_eq_some_iff.mp hfind
          exact .found (find_append _ hfind) rfl (add_length_le hle hsub)
      | none =>
          dsimp only
          split
          · rename_i hmax
            refine .pending (fun i hi ↦ ?_) rfl (by rw [List.length_append]; omega)
            exact lt_trans hmax (length_lt_of_find_append hfind hi)
          · rw [List.flatMap_cons, ← List.append_assoc]
            refine ih _ _ fun j hj hsub ↦ ?_
            have hroom : j + delimiter.length ≤ read_buffer.length := by omega
            exact find_eq_none_iff.mp hfind j (Nat.zero_le j) (by omega)
              ((isPrefix_drop_append hroom).mp hsub)

/-- How `receive_until` ends. -/
theorem receive_until_cases (delimiter : Bytes) (max_size : ℕ) (return_delimiter : Bool)
    (r : Reading) :
    ∃ out, Searched delimiter (max_size + delimiter.length) r.ending r.whole out ∧
      receive_until delimiter max_size return_delimiter r =
        match out with
        | (.error e, chunks, read_buffer) =>
            (.error e, { r with chunks := chunks, read_buffer := read_buffer })
        | (.ok terminator_index, chunks, read_buffer) =>
            let r := { r with chunks := chunks, read_buffer := read_buffer }
            let message_len := terminator_index + delimiter.length
            if message_len > max_size + delimiter.length then
              (.error (.tooLong false message_len (max_size + delimiter.length)), r)
            else
              (.ok (r.read_buffer.take
                  (if return_delimiter then message_len else terminator_index)),
                r.delete message_len) :=
  ⟨_, searched delimiter _ r.ending r.chunks r.read_buffer 0 fun j hj ↦ absurd hj j.not_lt_zero,
    rfl⟩

theorem follows_ended (delimiter : Bytes) (hdelimiter : delimiter ≠ []) (max_size : ℕ)
    (return_delimiter : Bool) :
    Follows (ended delimiter hdelimiter max_size return_delimiter) id
      (receive_until delimiter max_size return_delimiter) where
  message r m rest h := by
    obtain ⟨out, hsearched, hreceive⟩ :=
      receive_until_cases delimiter max_size return_delimiter r
    change cutUntil delimiter (max_size + delimiter.length) return_delimiter r.whole = _ at h
    rw [hreceive]
    unfold cutUntil at h
    cases hsearched with
    | found hfind hwhole hend =>
        rename_i i chunks read_buffer
        have htake (n : ℕ) (hn : n ≤ i + delimiter.length) :
            read_buffer.take n = r.whole.take n := by
          rw [← hwhole, List.take_append_of_le_length (hn.trans hend)]
        rw [hfind] at h
        dsimp only at h ⊢
        split at h
        · cases h
        · rename_i hmax
          cases h
          rw [if_neg hmax]
          refine ⟨_, congrArg (Except.ok ·, _) (htake _ ?_), ?_, rfl⟩
          · split
            · exact le_rfl
            · exact Nat.le_add_right i _
          · rw [Reading.whole_delete hend]
            exact congrArg (List.drop _) hwhole
    | pending hfind hwhole hlength =>
        split at h
        · rename_i i hi
          dsimp only at h
          rw [if_pos (hfind i hi)] at h
          cases h
        · rw [if_pos hlength] at h
          cases h
    | ended hfind hlength =>
        rw [hfind] at h
        dsimp only at h
        rw [if_neg (not_lt.mpr hlength)] at h
        cases h
  more r h := by
    obtain ⟨out, hsearched, hreceive⟩ :=
      receive_until_cases delimiter max_size return_delimiter r
    change cutUntil delimiter (max_size + delimiter.length) return_delimiter r.whole = _ at h
    rw [hreceive]
    unfold cutUntil at h
    cases hsearched with
    | found hfind hwhole hend =>
        rw [hfind] at h
        dsimp only at h
        split_ifs at h
    | pending hfind hwhole hlength =>
        split at h
        · dsimp only at h
          split_ifs at h
        · rw [if_pos hlength] at h
          cases h
    | ended hfind hlength => rfl
  failed r e h := by
    obtain ⟨out, hsearched, hreceive⟩ :=
      receive_until_cases delimiter max_size return_delimiter r
    change cutUntil delimiter (max_size + delimiter.length) return_delimiter r.whole = _ at h
    rw [hreceive]
    unfold cutUntil at h
    cases hsearched with
    | found hfind hwhole hend =>
        rw [hfind] at h
        dsimp only at h ⊢
        split at h
        · rename_i hmax
          rw [if_pos hmax]
          exact ⟨_, _, rfl, rfl, hwhole⟩
        · cases h
    | pending hfind hwhole hlength => exact ⟨_, _, rfl, rfl, hwhole⟩
    | ended hfind hlength =>
        rw [hfind] at h
        dsimp only at h
        rw [if_neg (not_lt.mpr hlength)] at h
        cases h

/-! ## Reading to the end -/

/-- The messages that are read are those that the cutter finds, and reading ends. -/
theorem Follows.read_to_channel {ε : Type*} {C : Cutter UInt8 ε} {left : Bytes → Bytes}
    {receive : Reading → Except ReadError Bytes × Reading} (h : Follows C left receive)
    {r : Reading} {n : ℕ} (hn : r.whole.length < n) :
    ∃ e r', Apex.read_to_channel receive n r = ((C.messages r.whole).1, some (e, r')) ∧
      ((C.messages r.whole).2.1 = none → e = r.ending.raised ∧
        r' = { r with chunks := [], read_buffer := left (C.messages r.whole).2.2 }) ∧
      ((C.messages r.whole).2.1 ≠ none →
        e.isTooLong = true ∧ r'.whole = (C.messages r.whole).2.2) := by
  induction n generalizing r with
  | zero => exact absurd hn (Nat.not_lt_zero _)
  | succ n ih =>
      rw [Apex.read_to_channel]
      cases hcut : C.cut r.whole with
      | more =>
          rw [h.more r hcut, Cutter.messages_of_more hcut]
          exact ⟨_, _, rfl, fun _ ↦ ⟨rfl, rfl⟩, fun hne ↦ absurd rfl hne⟩
      | failed e =>
          obtain ⟨e', r', hreceive, hlong, hwhole⟩ := h.failed r e hcut
          rw [hreceive, Cutter.messages_of_failed hcut]
          exact ⟨e', r', rfl, fun hnone ↦ (nomatch hnone), fun _ ↦ ⟨hlong, hwhole⟩⟩
      | message m rest =>
          obtain ⟨r', hreceive, rfl, hending⟩ := h.message r m rest hcut
          have hshort := C.shorter _ _ _ hcut
          obtain ⟨e, r'', hrun, hnone, hlong⟩ := ih (r := r') (by omega)
          rw [hreceive, Cutter.messages_of_message hcut]
          dsimp only
          rw [hrun]
          refine ⟨e, r'', rfl, fun hmore ↦ ?_, hlong⟩
          rw [← hending]
          exact hnone hmore

/-- What is read does not depend on the pieces that it comes in. -/
theorem Follows.congr {ε : Type*} {C : Cutter UInt8 ε} {left : Bytes → Bytes}
    {receive : Reading → Except ReadError Bytes × Reading} (h : Follows C left receive)
    {r₁ r₂ : Reading} {n₁ n₂ : ℕ} (hwhole : r₁.whole = r₂.whole) (hending : r₁.ending = r₂.ending)
    (hn₁ : r₁.whole.length < n₁) (hn₂ : r₂.whole.length < n₂) :
    ∃ messages e₁ e₂ r₁' r₂', Apex.read_to_channel receive n₁ r₁ = (messages, some (e₁, r₁')) ∧
      Apex.read_to_channel receive n₂ r₂ = (messages, some (e₂, r₂')) ∧
      (e₁ = e₂ ∧ r₁' = r₂' ∨
        e₁.isTooLong = true ∧ e₂.isTooLong = true ∧ r₁'.whole = r₂'.whole) := by
  obtain ⟨e₁, r₁', hrun₁, hnone₁, hlong₁⟩ := h.read_to_channel hn₁
  obtain ⟨e₂, r₂', hrun₂, hnone₂, hlong₂⟩ := h.read_to_channel hn₂
  rw [hwhole] at hrun₁ hnone₁ hlong₁
  refine ⟨_, e₁, e₂, r₁', r₂', hrun₁, hrun₂, ?_⟩
  by_cases hmore : (C.messages r₂.whole).2.1 = none
  · obtain ⟨rfl, rfl⟩ := hnone₁ hmore
    obtain ⟨rfl, rfl⟩ := hnone₂ hmore
    rw [hending]
    exact Or.inl ⟨rfl, rfl⟩
  · obtain ⟨hlong₁, hwhole₁⟩ := hlong₁ hmore
    obtain ⟨hlong₂, hwhole₂⟩ := hlong₂ hmore
    exact Or.inr ⟨hlong₁, hlong₂, hwhole₁.trans hwhole₂.symm⟩

/-- The pieces that the bytes of a connection arrive in make no difference to what is read,
whatever the format and the bytes: the same messages come of them, and reading ends in the
same way with the same bytes left.  When a message is too long, the text that says so and how
much of the rest has come in by then depend on them. -/
theorem read_to_channel_pieces (format : MessageFormat) (max_size : ℕ) {r₁ r₂ : Reading}
    (hwhole : r₁.whole = r₂.whole) (hending : r₁.ending = r₂.ending) {n₁ n₂ : ℕ}
    (hn₁ : r₁.whole.length < n₁) (hn₂ : r₂.whole.length < n₂) :
    ∃ messages e₁ e₂ r₁' r₂',
      read_to_channel (receive_fn format max_size) n₁ r₁ = (messages, some (e₁, r₁')) ∧
      read_to_channel (receive_fn format max_size) n₂ r₂ = (messages, some (e₂, r₂')) ∧
      (e₁ = e₂ ∧ r₁' = r₂' ∨
        e₁.isTooLong = true ∧ e₂.isTooLong = true ∧ r₁'.whole = r₂'.whole) := by
  unfold receive_fn
  split
  · exact (follows_sized max_size).congr hwhole hending hn₁ hn₂
  · exact (follows_ended [0] (List.cons_ne_nil 0 []) max_size true).congr hwhole hending hn₁ hn₂

/-- The same four bytes in one piece, and in two with one in the buffer. -/
theorem read_to_channel_pieces_two :
    ∃ messages e₁ e₂ r₁' r₂',
      read_to_channel (receive_fn .XML 5) 9
        ⟨[⟨[60, 62, 0, 60], by decide⟩], .closed, []⟩ = (messages, some (e₁, r₁')) ∧
      read_to_channel (receive_fn .XML 5) 9
        ⟨[⟨[62, 0], by decide⟩, ⟨[60], by decide⟩], .closed, [60]⟩ =
          (messages, some (e₂, r₂')) ∧
      (e₁ = e₂ ∧ r₁' = r₂' ∨
        e₁.isTooLong = true ∧ e₂.isTooLong = true ∧ r₁'.whole = r₂'.whole) :=
  @read_to_channel_pieces .XML 5 ⟨[⟨[60, 62, 0, 60], by decide⟩], .closed, []⟩
    ⟨[⟨[62, 0], by decide⟩, ⟨[60], by decide⟩], .closed, [60]⟩ rfl rfl 9 9
    (by decide) (by decide)

/-! ## Looking for the delimiter again -/

/-- However often `receive_until` looks and wherever it takes the search up again, it returns
what one search through everything that is to come gives: the bytes up to the first
delimiter, and an error if they are too many or there is none. -/
theorem receive_until_first (delimiter : Bytes) (max_size : ℕ) (return_delimiter : Bool)
    (r : Reading) :
    (∀ i, (∀ j < i, ¬ delimiter <+: r.whole.drop j) → delimiter <+: r.whole.drop i →
      i ≤ r.whole.length → i ≤ max_size →
      ∃ r', receive_until delimiter max_size return_delimiter r =
          (.ok (r.whole.take (if return_delimiter then i + delimiter.length else i)), r') ∧
        r'.whole = r.whole.drop (i + delimiter.length)) ∧
    ((∀ i ≤ max_size, i ≤ r.whole.length → ¬ delimiter <+: r.whole.drop i) →
      ∃ e r', receive_until delimiter max_size return_delimiter r = (.error e, r') ∧
        (e.isTooLong = true ∧ max_size + delimiter.length < r.whole.length ∨
          e = r.ending.raised ∧ r'.chunks = [] ∧ r'.read_buffer = r.whole)) := by
  obtain ⟨out, hsearched, hreceive⟩ :=
    receive_until_cases delimiter max_size return_delimiter r
  rw [hreceive]
  constructor
  · intro i hfirst hsub hi hmax
    have hfind : find r.whole delimiter 0 = some i :=
      find_eq_some_iff.mpr ⟨Nat.zero_le i, hi, hsub, fun j _ hj ↦ hfirst j hj⟩
    cases hsearched with
    | found hfind' hwhole hend =>
        rename_i i' chunks read_buffer
        rw [hfind] at hfind'
        cases hfind'
        have htake (n : ℕ) (hn : n ≤ i + delimiter.length) :
            read_buffer.take n = r.whole.take n := by
          rw [← hwhole, List.take_append_of_le_length (hn.trans hend)]
        dsimp only
        rw [if_neg (by omega)]
        refine ⟨_, congrArg (Except.ok ·, _) (htake _ ?_), ?_⟩
        · split
          · exact le_rfl
          · exact Nat.le_add_right i _
        · rw [Reading.whole_delete hend]
          exact congrArg (List.drop _) hwhole
    | pending hfind' hwhole hlength =>
        have hlt := hfind' i hfind
        omega
    | ended hfind' hlength =>
        rw [hfind] at hfind'
        cases hfind'
  · intro hnone
    cases hsearched with
    | found hfind hwhole hend =>
        rename_i i chunks read_buffer
        obtain ⟨-, hi, hsub, -⟩ := find_eq_some_iff.mp hfind
        have hmax : max_size < i := by
          by_contra hle
          exact hnone i (not_lt.mp hle) hi hsub
        have hlength := add_length_le hi hsub
        dsimp only
        rw [if_pos (by omega)]
        exact ⟨_, _, rfl, Or.inl ⟨rfl, by omega⟩⟩
    | pending hfind hwhole hlength => exact ⟨_, _, rfl, Or.inl ⟨rfl, hlength⟩⟩
    | ended hfind hlength => exact ⟨_, _, rfl, Or.inr ⟨rfl, rfl, rfl⟩⟩

/-- A delimiter of two bytes that is broken between two pieces. -/
theorem receive_until_first_broken :
    ∃ r', receive_until [13, 10] 8 false
        ⟨[⟨[65, 13], by decide⟩, ⟨[10, 66], by decide⟩], .closed, []⟩ = (.ok [65], r') ∧
      r'.whole = [66] :=
  (receive_until_first [13, 10] 8 false
    ⟨[⟨[65, 13], by decide⟩, ⟨[10, 66], by decide⟩], .closed, []⟩).1 1 (by decide) (by decide)
    (by decide) (by decide)

/-! ## What is encoded is read -/

section Frames

open Wire (header)

variable {max_size : ℕ} {p : Bytes}

theorem cutSized_frame (hfits : header.Fits p) (t : Bytes) :
    cutSized max_size (header.frame p ++ t) =
      if p.length > max_size then .failed p.length else .message p t := by
  have hframe : header.frame p ++ t = header.pack p.length ++ (p ++ t) := List.append_assoc ..
  have hpack : (header.pack p.length).length = 4 := header.length_pack _
  have htake : (header.frame p ++ t).take 4 = header.pack p.length := by
    rw [hframe, ← hpack, List.take_left]
  have hdrop : (header.frame p ++ t).drop 4 = p ++ t := by
    rw [hframe, ← hpack, List.drop_left]
  have hlength : (header.frame p ++ t).length = 4 + (p.length + t.length) := by
    rw [hframe, List.length_append, hpack, List.length_append]
  unfold cutSized
  dsimp only
  rw [htake, hdrop, hlength, header.unpack_pack _ hfits, if_neg (by omega)]
  split
  · rfl
  · rw [if_neg (by omega), List.take_left, List.drop_left]

theorem messages_frames {ps : List Bytes} (hfits : ∀ p ∈ ps, header.Fits p) :
    (sized max_size).messages (header.frames ps) =
      (ps.takeWhile (·.length ≤ max_size),
        ((ps.dropWhile (·.length ≤ max_size)).head?.map List.length),
        header.frames (ps.dropWhile (·.length ≤ max_size))) := by
  have hsplit : header.frames ps = (ps.takeWhile (·.length ≤ max_size)).flatMap header.frame ++
      header.frames (ps.dropWhile (·.length ≤ max_size)) := by
    conv_lhs => rw [← List.takeWhile_append_dropWhile (p := (·.length ≤ max_size)) (l := ps)]
    exact header.frames_append _ _
  have hcut : ∀ q ∈ ps.takeWhile (·.length ≤ max_size), ∀ t,
      (sized max_size).cut (header.frame q ++ t) = .message (id q) t := by
    intro q hq t
    have hmem := (List.takeWhile_sublist _).subset hq
    have hle := List.mem_takeWhile_imp hq
    refine (cutSized_frame (hfits q hmem) t).trans (if_neg ?_)
    exact not_lt.mpr (of_decide_eq_true hle)
  rw [hsplit, Cutter.messages_flatMap _ hcut, List.map_id]
  cases hrest : ps.dropWhile (·.length ≤ max_size) with
  | nil =>
      rw [LengthPrefix.frames_nil, Cutter.messages_of_more rfl, List.append_nil]
      rfl
  | cons q qs =>
      have hlong : ¬ q.length ≤ max_size := by
        have hhead := List.head?_dropWhile_not (fun q : Bytes ↦ decide (q.length ≤ max_size)) ps
        rw [hrest] at hhead
        exact of_decide_eq_false hhead
      have hq : q ∈ ps := (List.dropWhile_sublist _).subset (hrest ▸ List.mem_cons_self)
      have hfailed : (sized max_size).cut (header.frames (q :: qs)) = .failed q.length :=
        (cutSized_frame (hfits q hq) _).trans (if_pos (not_le.mp hlong))
      rw [Cutter.messages_of_failed hfailed, List.append_nil]
      rfl

/-- What a sender has encoded arrives in pieces, and all of it or the first part.  No message
is read that was not sent, each one that has arrived is read if no longer one is before it,
and of a stream that has arrived in full the messages up to the first that is too long. -/
theorem encoded_received {ps : List Bytes} {bs : Bytes} (h : Wire.encodeAll ps = .ok bs)
    (max_size : ℕ) {r : Reading} (hr : r.whole <+: bs) {n : ℕ} (hn : r.whole.length < n) :
    ∃ messages e r',
      read_to_channel (receive_fn .PROTO max_size) n r = (messages, some (e, r')) ∧
      messages <+: ps.takeWhile (·.length ≤ max_size) ∧
      (∀ k, header.frames (ps.take k) <+: r.whole →
        (ps.take k).takeWhile (·.length ≤ max_size) <+: messages) ∧
      (r.whole = bs →
        messages = ps.takeWhile (·.length ≤ max_size) ∧
        ((∀ p ∈ ps, p.length ≤ max_size) → e = r.ending.raised ∧ r'.read_buffer = []) ∧
        ((∃ p ∈ ps, max_size < p.length) → e.isTooLong = true)) := by
  obtain ⟨hfits, rfl⟩ := Wire.encodeAll_eq_ok_iff.mp h
  obtain ⟨e, r', hrun, hnone, hlong⟩ := (follows_sized max_size).read_to_channel hn
  refine ⟨_, e, r', hrun, ?_, ?_, ?_⟩
  · obtain ⟨t, ht⟩ := hr
    have hread := Cutter.messages_append (C := sized max_size) r.whole t
    rw [ht, messages_frames hfits] at hread
    exact hread
  · rintro k ⟨t, ht⟩
    have hread := Cutter.messages_append (C := sized max_size) (header.frames (ps.take k)) t
    rw [ht, messages_frames fun p hp ↦ hfits p (List.mem_of_mem_take hp)] at hread
    exact hread
  · intro hwhole
    rw [hwhole, messages_frames hfits] at hnone hlong
    rw [hwhole, messages_frames hfits]
    refine ⟨rfl, fun hall ↦ ?_, fun ⟨p, hp, hlt⟩ ↦ (hlong ?_).1⟩
    · have hdrop : ps.dropWhile (·.length ≤ max_size) = [] :=
        List.dropWhile_eq_nil_iff.mpr fun p hp ↦ decide_eq_true (hall p hp)
      rw [hdrop] at hnone
      obtain ⟨he, hr'⟩ := hnone rfl
      rw [he, hr']
      exact ⟨rfl, rfl⟩
    · intro hhead
      rw [Option.map_eq_none_iff, List.head?_eq_none_iff, List.dropWhile_eq_nil_iff] at hhead
      exact absurd (of_decide_eq_true (hhead p hp)) (not_le.mpr hlt)

/-- Two messages, the second of which is too long, in three pieces. -/
theorem encoded_received_two :
    ∃ messages e r',
      read_to_channel (receive_fn .PROTO 2) 16
        ⟨[⟨[2, 0], by decide⟩, ⟨[0, 0, 65, 66, 3, 0], by decide⟩,
          ⟨[0, 0, 67, 68, 69], by decide⟩], .closed, []⟩ = (messages, some (e, r')) ∧
      messages = [[65, 66]] ∧ e.isTooLong = true := by
  obtain ⟨messages, e, r', hrun, -, -, hwhole⟩ := @encoded_received [[65, 66], [67, 68, 69]]
    [2, 0, 0, 0, 65, 66, 3, 0, 0, 0, 67, 68, 69] rfl 2
    ⟨[⟨[2, 0], by decide⟩, ⟨[0, 0, 65, 66, 3, 0], by decide⟩,
      ⟨[0, 0, 67, 68, 69], by decide⟩], .closed, []⟩ List.prefix_rfl 16 (by decide)
  obtain ⟨hmessages, -, hlong⟩ := hwhole rfl
  exact ⟨messages, e, r', hrun, hmessages, hlong ⟨[67, 68, 69], by decide, by decide⟩⟩

end Frames

end Apex

end SensorFusion
