import LanguageHub.Proofs.Frame.Header
import LanguageHub.Proofs.Json.Values

/-!
# Streams of frames

A value is **sendable** (`Frame.Sendable`) if its frame carries it unchanged. Two facts about the
frame of a sendable value say all about streams of such frames.

* `Frame.next_write`: the frame is taken off the front, and not one byte of what follows it.
* `Frame.next_take_write`: a frame that is cut is an error, wherever the cut is. A cut inside the
  digits leaves the line of a shorter number, and a cut inside the blank line leaves a blank line;
  but neither is followed by what has to follow it.

A whole stream is read frame by frame to its end (`Frame.reads_readAll`), so both carry over to
streams by induction on the values: `Frame.readAll_stream_append` and `Frame.readAll_take_stream`.
-/

namespace LanguageHub.Frame

variable {j : Json} {ms : List Json} {s line rest : List UInt8} {ended first : Bool}
  {length : Option Nat}

/-- A value that its frame carries unchanged. -/
structure Sendable (j : Json) : Prop where
  /-- The members of every object are in the order of their names. -/
  ordered : j.canonical = j
  integral : j.Integral
  shallow : j.depth ≤ Json.greatestDepth
  short : (bodyOf j).length ≤ limit

/-- The frames of some values, one after the other. -/
def stream (ms : List Json) : List UInt8 := ms.flatMap write

@[simp] theorem stream_nil : stream [] = [] := rfl

@[simp] theorem stream_cons (j : Json) (ms : List Json) :
    stream (j :: ms) = write j ++ stream ms := List.flatMap_cons

@[simp] theorem stream_append (ms ms' : List Json) :
    stream (ms ++ ms') = stream ms ++ stream ms' := List.flatMap_append

/-- More frames are no fewer bytes. -/
theorem length_stream_take_mono {m n : Nat} (h : m ≤ n) :
    (stream (ms.take m)).length ≤ (stream (ms.take n)).length := by
  have hsplit : stream (ms.take n) = stream (ms.take m) ++ stream ((ms.take n).drop m) := by
    have htake : (ms.take n).take m = ms.take m := by rw [List.take_take, Nat.min_eq_left h]
    rw [← stream_append, ← htake, List.take_append_drop]
  rw [hsplit, List.length_append]
  exact Nat.le_add_right _ _

/-! ### The header block -/

theorem readHeader_of_line (h : takeLine s = some (line, rest)) :
    readHeader ended first length s =
      match lineEffect length line with
      | .blank => readBody ended length rest
      | .length n => readHeader ended false n rest
      | .bad e => .failed e := by
  rw [readHeader]
  split
  · next heq =>
    rw [h] at heq
    cases heq
    rfl
  · next heq => rw [h] at heq; cases heq

/-- What is left of a stream that has ended may lack its line feed. -/
theorem readHeader_of_cut (h : takeLine s = none) (hne : s ≠ []) :
    readHeader true first length s =
      match lineEffect length s with
      | .blank => readBody true length []
      | .length _ => .failed .endedInHeader
      | .bad e => .failed e := by
  rw [readHeader]
  split
  · next heq => rw [h] at heq; cases heq
  · exact (if_neg (by decide)).trans (if_neg (by simpa using hne))

theorem readBody_length {n : Option Nat} (h : readBody ended n s = .message j rest) :
    rest.length ≤ s.length := by
  unfold readBody at h
  split at h
  · cases h
  split at h
  · cases h
  split at h
  · split at h <;> cases h
  split at h
  · cases h
    rw [List.length_drop]
    omega
  · cases h

theorem readBody_ne_more {n : Option Nat} : readBody true n s ≠ .more := by
  unfold readBody
  repeat' split
  all_goals simp_all

/-- A stream that has ended leaves nothing undecided. -/
theorem readHeader_ne_more : readHeader true first length s ≠ .more := by
  fun_induction readHeader true first length s with
  | case1 => exact readBody_ne_more
  | case2 _ _ _ _ _ _ _ _ _ ih => exact ih
  | case4 _ _ _ _ hopen => exact absurd hopen (by decide)
  | case7 => exact readBody_ne_more
  | _ => simp

/-- Every frame takes some bytes. -/
theorem readHeader_length (h : readHeader ended first length s = .message j rest) :
    rest.length < s.length := by
  fun_induction readHeader ended first length s with
  | case1 _ _ _ _ _ _ hlt => exact Nat.lt_of_le_of_lt (readBody_length h) hlt
  | case2 _ _ _ _ _ _ hlt _ _ ih => exact Nat.lt_trans (ih h) hlt
  | case7 _ _ s _ _ hne =>
    have hpos : 0 < s.length := List.length_pos_iff.mpr (by simpa using hne)
    exact Nat.lt_of_le_of_lt (readBody_length h) hpos
  | _ => cases h

/-! ### One frame -/

theorem next_of_message_length (h : next ended s = .message j rest) : rest.length < s.length :=
  readHeader_length h

/-- The bytes of a frame: its length line, the blank line, and its body. -/
theorem write_eq (j : Json) :
    write j = lengthBytes (bodyOf j).length ++ 0x0A :: 0x0D :: 0x0A :: bodyOf j := by
  simp only [write, Text.Utf8.encodeString, lengthBytes, lengthLine, String.toList_append,
    Nat.toString_eq_repr, Nat.toList_repr, Text.Utf8.encode_append, List.append_assoc]
  rfl

namespace Sendable

theorem parse?_bodyOf (h : Sendable j) : Json.parse? (bodyOf j) = some j := by
  rw [bodyOf, Json.parse?_encode_write h.integral h.shallow, h.ordered]

theorem length_lt (h : Sendable j) : (bodyOf j).length < UInt64.size :=
  Nat.lt_of_le_of_lt h.short (by decide)

/-- No value has an empty text. -/
theorem length_pos (h : Sendable j) : 0 < (bodyOf j).length := by
  refine List.length_pos_iff.mpr fun hnil => ?_
  have hparse := h.parse?_bodyOf
  rw [hnil, Json.parse?, Text.Utf8.decode?] at hparse
  cases hparse

end Sendable

/-- What follows the length line of a sendable value is read as the end of the header block. -/
theorem readHeader_lengthBytes (h : Sendable j) (rest : List UInt8) :
    readHeader ended first length (lengthBytes (bodyOf j).length ++ 0x0A :: rest) =
      readHeader ended false (some (bodyOf j).length) rest := by
  rw [readHeader_of_line (takeLine_append (lineFeed_not_mem_lengthBytes _) rest),
    lineEffect_lengthLine h.length_lt]

/-- What follows the blank line is read as the body. -/
theorem readHeader_blank (rest : List UInt8) :
    readHeader ended first length (0x0D :: 0x0A :: rest) = readBody ended length rest := by
  have hline : takeLine (0x0D :: 0x0A :: rest) = some ([0x0D, 0x0A], rest) := rfl
  rw [readHeader_of_line hline, (lineEffect_blank length).1]

/-- **A frame is taken off the front**, and nothing of what follows it. -/
theorem next_write (h : Sendable j) (ended : Bool) (rest : List UInt8) :
    next ended (write j ++ rest) = .message j rest := by
  rw [next, write_eq, List.append_assoc, List.cons_append, List.cons_append, List.cons_append,
    readHeader_lengthBytes h, readHeader_blank]
  have hlimit : ¬ limit < (bodyOf j).length := Nat.not_lt.mpr h.short
  have hlength : ¬ (bodyOf j ++ rest).length < (bodyOf j).length := by
    rw [List.length_append]
    omega
  simp only [readBody, hlimit, hlength, if_false, List.take_left, List.drop_left, h.parse?_bodyOf]

/-- A stream that ends inside the body of a sendable value is an error. -/
theorem readBody_cut (h : Sendable j) (hlt : s.length < (bodyOf j).length) :
    readBody true (some (bodyOf j).length) s = .failed .body := by
  simp only [readBody, Nat.not_lt.mpr h.short, hlt, if_true, if_false]

/-- A stream that ends before the first line does is an error: no length is known. -/
theorem readHeader_cut (h : takeLine s = none) (hne : s ≠ []) :
    ∃ e, readHeader true first none s = .failed e := by
  rw [readHeader_of_cut h hne]
  split
  · exact ⟨.noLength, rfl⟩
  · exact ⟨.endedInHeader, rfl⟩
  · exact ⟨_, rfl⟩

/-- **A frame that is cut is an error**, wherever it is cut. -/
theorem next_take_write (h : Sendable j) {k : Nat} (hpos : 0 < k) (hk : k < (write j).length) :
    ∃ e, next true ((write j).take k) = .failed e := by
  obtain ⟨l, hl⟩ : ∃ l, l = lengthBytes (bodyOf j).length := ⟨_, rfl⟩
  rw [write_eq, ← hl] at hk ⊢
  rw [List.length_append, List.length_cons, List.length_cons, List.length_cons] at hk
  rcases Nat.lt_or_ge l.length k with hlt | hle
  · obtain ⟨i, rfl⟩ : ∃ i, k = l.length + (i + 1) := ⟨k - l.length - 1, by omega⟩
    rw [next, List.take_length_add_append, List.take_succ_cons, hl, readHeader_lengthBytes h]
    -- in front of the blank line, inside it, and behind it
    rcases i with _ | _ | i
    · exact ⟨.endedInHeader, by rw [List.take_zero, readHeader]; rfl⟩
    · rw [List.take_succ_cons, List.take_zero, readHeader_of_cut rfl (by simp),
        (lineEffect_blank _).2]
      exact ⟨.body, readBody_cut h h.length_pos⟩
    · rw [List.take_succ_cons, List.take_succ_cons, readHeader_blank]
      exact ⟨.body, readBody_cut h (by rw [List.length_take]; omega)⟩
  · rw [next, List.take_append_of_le_length hle]
    refine readHeader_cut (takeLine_eq_none fun hmem => ?_) ?_
    · exact lineFeed_not_mem_lengthBytes _ (hl ▸ List.mem_of_mem_take hmem)
    · rw [ne_eq, List.take_eq_nil_iff, not_or]
      refine ⟨by omega, ?_⟩
      rintro rfl
      exact absurd hle (by simp; omega)

/-! ### Whole streams -/

/-- Fuel that exceeds the length of the stream does not matter. -/
theorem readAllFrom_congr {fuel fuel' : Nat} (h : s.length < fuel) (h' : s.length < fuel') :
    readAllFrom fuel s = readAllFrom fuel' s := by
  induction fuel generalizing s fuel' with
  | zero => exact absurd h (Nat.not_lt_zero _)
  | succ fuel ih =>
    cases fuel' with
    | zero => exact absurd h' (Nat.not_lt_zero _)
    | succ fuel' =>
      simp only [readAllFrom]
      split
      · next rest heq =>
        have hlt := next_of_message_length heq
        have hrest : readAllFrom fuel rest = readAllFrom fuel' rest := ih (by omega) (by omega)
        rw [hrest]
      · rfl
      · rfl
      · rfl

theorem readAll_of_message (h : next true s = .message j rest) :
    readAll s = (j :: (readAll rest).1, (readAll rest).2) := by
  have hlt := next_of_message_length h
  rw [readAll, readAllFrom, h]
  simp only [readAll, readAllFrom_congr hlt (Nat.lt_succ_self rest.length)]

theorem readAll_of_failed {e : Error} (h : next true s = .failed e) :
    readAll s = ([], some e) := by
  rw [readAll, readAllFrom, h]

theorem readAll_of_ended (h : next true s = .ended) : readAll s = ([], none) := by
  rw [readAll, readAllFrom, h]

theorem readAll_nil : readAll [] = ([], none) :=
  readAll_of_ended (by rw [next, readHeader]; rfl)

/-- What is read of a stream, frame by frame: it ends where no frame is left, or with an error. -/
inductive Reads : List UInt8 → List Json × Option Error → Prop
  | ended {s : List UInt8} : next true s = .ended → Reads s ([], none)
  | failed {s : List UInt8} {e : Error} : next true s = .failed e → Reads s ([], some e)
  | message {s rest : List UInt8} {j : Json} {r : List Json × Option Error} :
      next true s = .message j rest → Reads rest r → Reads s (j :: r.1, r.2)

/-- **A stream is read to its end.** No error means that no frame was left. -/
theorem reads_readAll (s : List UInt8) : Reads s (readAll s) := by
  cases h : next true s with
  | message j rest =>
    have hlt := next_of_message_length h
    rw [readAll_of_message h]
    exact .message h (reads_readAll rest)
  | ended =>
    rw [readAll_of_ended h]
    exact .ended h
  | failed e =>
    rw [readAll_of_failed h]
    exact .failed h
  | more => exact absurd h readHeader_ne_more
termination_by s.length

theorem readAll_write_append (h : Sendable j) (rest : List UInt8) :
    readAll (write j ++ rest) = (j :: (readAll rest).1, (readAll rest).2) :=
  readAll_of_message (next_write h true rest)

/-- A frame that is cut, or not there at all, leaves no value behind. -/
theorem readAll_take_write (h : Sendable j) {k : Nat} (hk : k < (write j).length) :
    (readAll ((write j).take k)).1 = [] ∧ ((readAll ((write j).take k)).2 = none ↔ k = 0) := by
  rcases Nat.eq_zero_or_pos k with rfl | hpos
  · rw [List.take_zero, readAll_nil]
    exact ⟨rfl, fun _ => rfl, fun _ => rfl⟩
  · obtain ⟨e, he⟩ := next_take_write h hpos hk
    rw [readAll_of_failed he]
    refine ⟨rfl, fun hnone => ?_, fun hzero => absurd hzero (Nat.ne_of_gt hpos)⟩
    cases hnone

/-- **What was sent is received**, and what follows is read as if nothing had been before it. -/
theorem readAll_stream_append (h : ∀ j ∈ ms, Sendable j) (rest : List UInt8) :
    readAll (stream ms ++ rest) = (ms ++ (readAll rest).1, (readAll rest).2) := by
  induction ms with
  | nil => rfl
  | cons j ms ih =>
    rw [stream_cons, List.append_assoc, readAll_write_append (h j List.mem_cons_self),
      ih fun j hj => h j (List.mem_cons_of_mem _ hj)]
    rfl

/-- Two values with every kind of token: an escape of each form, characters outside ASCII, and the
integers at the ends of the range. -/
def sample : List Json :=
  [.obj [("text", .str "\"a\\b\u0001\tÄ😀"), ("version", .num (.int (-(2 ^ 63))))],
    .arr [.null, .bool true, .num (.int (2 ^ 64 - 1)), .arr [], .obj []]]

theorem sendable_sample : ∀ j ∈ sample, Sendable j := by
  intro j hj
  obtain rfl | rfl : j = _ ∨ j = _ := by simpa [sample] using hj
  · refine ⟨rfl, ?_, by decide, by decide +kernel⟩
    simp [Json.Integral, Json.IntegralMembers, Json.Number.Fits]
  · refine ⟨rfl, ?_, by decide, by decide +kernel⟩
    simp [Json.Integral, Json.IntegralItems, Json.IntegralMembers, Json.Number.Fits]

/-- What follows may be no frame at all: here the carriage return and the blank line are missing,
and the length is none. -/
theorem readAll_sample_append_header :
    (∀ j ∈ sample, Sendable j) ∧
      readAll (stream sample ++ Text.Utf8.encodeString "Content-Length: -1\n") =
        (sample ++ (readAll (Text.Utf8.encodeString "Content-Length: -1\n")).1,
          (readAll (Text.Utf8.encodeString "Content-Length: -1\n")).2) :=
  ⟨sendable_sample, readAll_stream_append sendable_sample _⟩

/-! ### Streams that are cut -/

/-- How many frames of a stream end at byte `k` or before it. -/
def complete : List Json → Nat → Nat
  | [], _ => 0
  | j :: ms, k => if (write j).length ≤ k then complete ms (k - (write j).length) + 1 else 0

theorem complete_le (ms : List Json) (k : Nat) : complete ms k ≤ ms.length := by
  induction ms generalizing k with
  | nil => exact Nat.le_refl 0
  | cons j ms ih =>
    rw [complete]
    split
    · exact Nat.succ_le_succ (ih _)
    · exact Nat.zero_le _

theorem length_stream_take_succ (j : Json) (ms : List Json) (n : Nat) :
    (stream ((j :: ms).take (n + 1))).length =
      (write j).length + (stream (ms.take n)).length := by
  rw [List.take_succ_cons, stream_cons, List.length_append]

/-- `complete` counts what it should. -/
theorem length_stream_take_le_iff {n k : Nat} (hn : n ≤ ms.length) :
    (stream (ms.take n)).length ≤ k ↔ n ≤ complete ms k := by
  induction ms generalizing n k with
  | nil => simp [Nat.le_zero.mp hn]
  | cons j ms ih =>
    rcases n with _ | n
    · simp
    · rw [length_stream_take_succ, complete]
      split
      · have := ih (n := n) (k := k - (write j).length) (Nat.le_of_succ_le_succ hn)
        omega
      · omega

/-- The first `k` bytes of a stream: the frames that end there, and an error if one is cut. -/
theorem readAll_take (h : ∀ j ∈ ms, Sendable j) {k : Nat} (hk : k ≤ (stream ms).length) :
    (readAll ((stream ms).take k)).1 = ms.take (complete ms k) ∧
      ((readAll ((stream ms).take k)).2 = none ↔
        k = (stream (ms.take (complete ms k))).length) := by
  induction ms generalizing k with
  | nil =>
    obtain rfl : k = 0 := Nat.le_zero.mp hk
    rw [List.take_zero, readAll_nil]
    exact ⟨rfl, fun _ => rfl, fun _ => rfl⟩
  | cons j ms ih =>
    have hj := h j List.mem_cons_self
    rw [stream_cons] at hk ⊢
    rw [complete]
    split
    · next hle =>
      obtain ⟨i, rfl⟩ := Nat.exists_eq_add_of_le hle
      rw [List.length_append, Nat.add_le_add_iff_left] at hk
      obtain ⟨hvalues, hend⟩ := ih (fun j hj => h j (List.mem_cons_of_mem _ hj)) hk
      rw [List.take_length_add_append, readAll_write_append hj, length_stream_take_succ,
        Nat.add_sub_cancel_left, hvalues, Nat.add_left_cancel_iff]
      exact ⟨rfl, hend⟩
    · next hlt =>
      obtain ⟨hvalues, hend⟩ := readAll_take_write hj (Nat.lt_of_not_le hlt)
      rw [List.take_append_of_le_length (Nat.le_of_not_le hlt)]
      exact ⟨hvalues, hend⟩

/-- **A stream that is cut is neither complete nor another stream.** The values in its first `k`
bytes are those whose frames end there, and an error follows unless one of the frames ends at
`k`. -/
theorem readAll_take_stream (h : ∀ j ∈ ms, Sendable j) {k : Nat} (hk : k ≤ (stream ms).length) :
    ∃ i ≤ ms.length,
      (∀ n ≤ ms.length, (stream (ms.take n)).length ≤ k ↔ n ≤ i) ∧
      (readAll ((stream ms).take k)).1 = ms.take i ∧
      ((readAll ((stream ms).take k)).2 = none ↔
        ∃ n ≤ ms.length, k = (stream (ms.take n)).length) := by
  obtain ⟨hvalues, hend⟩ := readAll_take h hk
  refine ⟨complete ms k, complete_le ms k, fun n hn => length_stream_take_le_iff hn, hvalues,
    hend.trans ⟨fun heq => ⟨_, complete_le ms k, heq⟩, ?_⟩⟩
  rintro ⟨n, hn, heq⟩
  have hle := (length_stream_take_le_iff hn).mp (Nat.le_of_eq heq.symm)
  have hcomplete := (length_stream_take_le_iff (complete_le ms k)).mpr (Nat.le_refl (complete ms k))
  exact Nat.le_antisymm (Nat.le_trans (Nat.le_of_eq heq) (length_stream_take_mono hle)) hcomplete

/-- The cut is inside the digits of the second length, of which one is left. -/
theorem readAll_take_sample :
    (∀ j ∈ sample, Sendable j) ∧ 101 ≤ (stream sample).length ∧
      ∃ i ≤ sample.length,
        (∀ n ≤ sample.length, (stream (sample.take n)).length ≤ 101 ↔ n ≤ i) ∧
        (readAll ((stream sample).take 101)).1 = sample.take i ∧
        ((readAll ((stream sample).take 101)).2 = none ↔
          ∃ n ≤ sample.length, 101 = (stream (sample.take n)).length) :=
  have hk : 101 ≤ (stream sample).length := by decide +kernel
  ⟨sendable_sample, hk, readAll_take_stream sendable_sample hk⟩

end LanguageHub.Frame
