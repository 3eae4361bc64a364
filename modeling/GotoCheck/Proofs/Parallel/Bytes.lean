import GotoCheck.Induction.Record
import Mathlib.Data.Nat.Digits.Defs

/-! Records as bytes. A record is read from the eight bytes that write it and from no others. Bytes
that write none have a tag beyond those of the four senders, and the error tells which. -/
namespace GotoCheck.Induction

/-! Words, with the low byte first. -/

namespace Record
variable {l m : List UInt8}

/-- The number that bytes write, the lowest first. -/
def number (l : List UInt8) : Nat := Nat.ofDigits 256 (l.map UInt8.toNat)

theorem digits_lt (l : List UInt8) : ∀ n ∈ l.map UInt8.toNat, n < 256 := by
  intro n hn
  obtain ⟨a, -, rfl⟩ := List.mem_map.mp hn
  exact a.toNat_lt

theorem number_lt (l : List UInt8) : number l < 256 ^ l.length := by
  have hlt := Nat.ofDigits_lt_base_pow_length (by decide) (digits_lt l)
  rwa [List.length_map] at hlt

theorem number_append (l m : List UInt8) :
    number (l ++ m) = number l + 256 ^ l.length * number m := by
  rw [number, List.map_append, Nat.ofDigits_append, List.length_map]
  rfl

theorem number_inj (h : l.length = m.length) : number l = number m ↔ l = m := by
  refine ⟨fun heq => ?_, congrArg number⟩
  have hlength : (l.map UInt8.toNat).length = (m.map UInt8.toNat).length := by simpa using h
  have hdigits := Nat.ofDigits_inj_of_len_eq (by decide) hlength (digits_lt l) (digits_lt m) heq
  exact (List.map_inj_right fun _ _ => UInt8.toNat_inj.mp).mp hdigits

theorem toNat_byte (w : UInt32) (i : Nat) : (byte w i).toNat = w.toNat / 256 ^ i % 256 :=
  UInt8.toNat_ofNat'

/-- The lowest bytes of a word write what is left of it without the others. -/
theorem number_map_byte (w : UInt32) (n : Nat) :
    number ((List.range n).map (byte w)) = w.toNat % 256 ^ n := by
  induction n with
  | zero => simp [number, Nat.mod_one]
  | succ n ih =>
    -- the byte above them is the next digit
    have hdigit : number [byte w n] = w.toNat / 256 ^ n % 256 := by
      rw [← toNat_byte]
      exact Nat.ofDigits_singleton
    calc number ((List.range (n + 1)).map (byte w))
        = number ((List.range n).map (byte w)) + 256 ^ n * number [byte w n] := by
          rw [List.range_succ, List.map_append, List.map_singleton, number_append,
            List.length_map, List.length_range]
      _ = w.toNat % 256 ^ n + 256 ^ n * (w.toNat / 256 ^ n % 256) := by rw [ih, hdigit]
      _ = w.toNat % 256 ^ (n + 1) := Nat.mod_pow_succ.symm

theorem number_bytes (w : UInt32) : number [byte w 0, byte w 1, byte w 2, byte w 3] = w.toNat :=
  (number_map_byte w 4).trans (Nat.mod_eq_of_lt w.toNat_lt)

theorem toNat_ofNat_number (h : l.length = 4) : (UInt32.ofNat (number l)).toNat = number l := by
  have hlt := number_lt l
  rw [h] at hlt
  exact UInt32.toNat_ofNat_of_lt hlt

theorem word_eq (a b c d : UInt8) : word a b c d = UInt32.ofNat (number [a, b, c, d]) := by
  simp [word, number, Nat.ofDigits_cons]

end Record

/-! Senders and their tags. -/

namespace Sender
variable {s : Sender} {tag : UInt32}

theorem ofTag?_eq_some_iff : ofTag? tag = some s ↔ s.tag = tag := by
  constructor
  · intro h
    unfold ofTag? at h
    split at h <;> cases h <;> rfl
  · rintro rfl
    cases s with
    | worker strategy => cases strategy <;> rfl
    | parent => rfl

theorem exists_tag_eq_iff (tag : UInt32) : (∃ s : Sender, s.tag = tag) ↔ tag.toNat ≤ 3 := by
  constructor
  · rintro ⟨s, rfl⟩
    cases s with
    | worker strategy => cases strategy <;> decide
    | parent => decide
  · intro h
    obtain ⟨n, hn, rfl⟩ : ∃ n ≤ 3, UInt32.ofNat n = tag := ⟨tag.toNat, h, UInt32.ofNat_toNat⟩
    match n with
    | 0 => exact ⟨worker .baseCase, rfl⟩
    | 1 => exact ⟨worker .forwardCondition, rfl⟩
    | 2 => exact ⟨worker .inductiveStep, rfl⟩
    | 3 => exact ⟨parent, rfl⟩

theorem ofTag?_eq_none_iff : ofTag? tag = none ↔ 3 < tag.toNat := by
  rw [Option.eq_none_iff_forall_ne_some, ← Nat.not_le, ← exists_tag_eq_iff, not_exists]
  simp only [ne_eq, ofTag?_eq_some_iff]

end Sender

/-! Whole records. -/

namespace Record
variable {r : Record} {b b' : Vector UInt8 8}

/-- The number in the first four bytes. -/
def tagNumber (b : Vector UInt8 8) : Nat := number (b.toList.take 4)

/-- The number in the last four bytes. -/
def boundNumber (b : Vector UInt8 8) : Nat := number (b.toList.drop 4)

theorem toNat_ofNat_tagNumber (b : Vector UInt8 8) :
    (UInt32.ofNat (tagNumber b)).toNat = tagNumber b :=
  toNat_ofNat_number (by simp)

theorem toNat_ofNat_boundNumber (b : Vector UInt8 8) :
    (UInt32.ofNat (boundNumber b)).toNat = boundNumber b :=
  toNat_ofNat_number (by simp)

/-- Eight bytes are known by their two numbers. -/
theorem eq_iff_numbers : b = b' ↔ tagNumber b = tagNumber b' ∧ boundNumber b = boundNumber b' := by
  rw [tagNumber, tagNumber, boundNumber, boundNumber, number_inj (by simp), number_inj (by simp),
    ← Vector.toList_inj]
  constructor
  · intro h
    rw [h]
    exact ⟨rfl, rfl⟩
  · rintro ⟨htake, hdrop⟩
    rw [← List.take_append_drop 4 b.toList, htake, hdrop, List.take_append_drop]

theorem tagNumber_toBytes (r : Record) : tagNumber r.toBytes = r.sender.tag.toNat :=
  number_bytes r.sender.tag

theorem boundNumber_toBytes (r : Record) : boundNumber r.toBytes = r.bound.toNat :=
  number_bytes r.bound

theorem toBytes_eq_iff : r.toBytes = b ↔
    r.sender.tag = UInt32.ofNat (tagNumber b) ∧ r.bound = UInt32.ofNat (boundNumber b) := by
  rw [eq_iff_numbers, tagNumber_toBytes, boundNumber_toBytes, ← UInt32.toNat_inj,
    ← UInt32.toNat_inj, toNat_ofNat_tagNumber, toNat_ofNat_boundNumber]

/-- What is read of eight bytes depends on their two numbers. -/
theorem ofBytes_eq (b : Vector UInt8 8) : ofBytes b =
    match Sender.ofTag? (UInt32.ofNat (tagNumber b)) with
    | some sender => .ok ⟨sender, UInt32.ofNat (boundNumber b)⟩
    | none => .error (.unrecognizedWorker (UInt32.ofNat (tagNumber b))) := by
  obtain ⟨⟨l⟩, h⟩ := b
  match l, h with
  | [_, _, _, _, _, _, _, _], _ =>
    simp only [ofBytes, word_eq]
    rfl

theorem ofBytes_eq_ok_iff : ofBytes b = .ok r ↔ r.toBytes = b := by
  rw [toBytes_eq_iff, ← Sender.ofTag?_eq_some_iff, ofBytes_eq]
  cases Sender.ofTag? (UInt32.ofNat (tagNumber b)) with
  | none => simp
  | some s =>
    obtain ⟨sender, bound⟩ := r
    simp [eq_comm]

theorem ofBytes_toBytes (r : Record) : ofBytes r.toBytes = .ok r :=
  ofBytes_eq_ok_iff.mpr rfl

theorem exists_ofBytes_eq_ok_iff : (∃ r, ofBytes b = .ok r) ↔ tagNumber b ≤ 3 := by
  have htags := Sender.exists_tag_eq_iff (UInt32.ofNat (tagNumber b))
  rw [toNat_ofNat_tagNumber] at htags
  simp only [← htags, ofBytes_eq_ok_iff, toBytes_eq_iff]
  constructor
  · rintro ⟨r, htag, -⟩
    exact ⟨r.sender, htag⟩
  · rintro ⟨s, htag⟩
    -- the last four bytes write a bound whatever they are
    exact ⟨⟨s, UInt32.ofNat (boundNumber b)⟩, htag, rfl⟩

theorem ofBytes_eq_error_iff {tag : UInt32} : ofBytes b = .error (.unrecognizedWorker tag) ↔
    3 < tagNumber b ∧ tag.toNat = tagNumber b := by
  rw [← toNat_ofNat_tagNumber, ← Sender.ofTag?_eq_none_iff, UInt32.toNat_inj, ofBytes_eq]
  cases Sender.ofTag? (UInt32.ofNat (tagNumber b)) with
  | none => simp [eq_comm]
  | some s => simp

/-- Every record is read back from its bytes, and they write its tag and its bound. Of all arrays of
eight bytes those are read whose tag is at most three, each as the record that it is the bytes of.
The error for any other tells its tag. -/
theorem bytes_exact :
    (∀ r : Record, ofBytes r.toBytes = .ok r ∧
        tagNumber r.toBytes = r.sender.tag.toNat ∧ boundNumber r.toBytes = r.bound.toNat) ∧
      ∀ b : Vector UInt8 8,
        ((∃ r, ofBytes b = .ok r) ↔ tagNumber b ≤ 3) ∧
        (∀ r, ofBytes b = .ok r ↔ r.toBytes = b) ∧
        ((∃ tag, ofBytes b = .error (.unrecognizedWorker tag) ∧ tag.toNat = tagNumber b) ↔
          3 < tagNumber b) := by
  refine ⟨fun r => ⟨ofBytes_toBytes r, tagNumber_toBytes r, boundNumber_toBytes r⟩, fun b => ?_⟩
  refine ⟨exists_ofBytes_eq_ok_iff, fun _ => ofBytes_eq_ok_iff, ?_⟩
  constructor
  · rintro ⟨tag, herror, -⟩
    exact (ofBytes_eq_error_iff.mp herror).1
  · intro hlt
    have htag := toNat_ofNat_tagNumber b
    exact ⟨UInt32.ofNat (tagNumber b), ofBytes_eq_error_iff.mpr ⟨hlt, htag⟩, htag⟩

example : toBytes ⟨.worker .inductiveStep, 258⟩ = #v[2, 0, 0, 0, 2, 1, 0, 0] := by decide

end Record
end GotoCheck.Induction
