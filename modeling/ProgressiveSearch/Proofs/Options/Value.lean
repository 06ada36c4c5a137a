import ProgressiveSearch.Options.Basic

/-! # The values of options

An option takes the values of its kind (`Kind.Takes`), and these are what can be read
for it: each of them has a text from which it is read, a number its decimal digits
(`Kind.Takes.read_written`), and whatever is read is one of them (`Kind.takes_of_read`).
-/
namespace ProgressiveSearch

namespace Text

/-! ## Decimal digits -/

/-- A number does not get less by digits behind it. -/
theorem le_ofDigitChars (cs : List Char) (acc : Nat) : acc ≤ Nat.ofDigitChars 10 cs acc := by
  induction cs generalizing acc with
  | nil => exact Nat.le_refl _
  | cons c rest ih =>
    rw [Nat.ofDigitChars_cons]
    exact Nat.le_trans (by omega) (ih _)

/-- Digits are read as the number that they are, if it is within the bound. -/
theorem readDigits_eq {bound : Nat} {past : NumberFault} {cs : List Char} {acc : Nat}
    (hdigits : ∀ c ∈ cs, c.isDigit = true) (hle : Nat.ofDigitChars 10 cs acc ≤ bound) :
    readDigits bound past acc cs = .ok (Nat.ofDigitChars 10 cs acc) := by
  induction cs generalizing acc with
  | nil => rfl
  | cons c rest ih =>
    obtain ⟨hc, hrest⟩ := List.forall_mem_cons.mp hdigits
    rw [Nat.ofDigitChars_cons, Nat.mul_comm] at hle ⊢
    have hstep : acc * 10 + (c.toNat - '0'.toNat) ≤ bound :=
      Nat.le_trans (le_ofDigitChars rest _) hle
    rw [readDigits, digit?, if_pos hc]
    dsimp only
    rw [if_pos hstep]
    exact ih hrest hle

/-- A digit is no sign. -/
theorem isDigit_ne_sign {c : Char} (hc : c.isDigit = true) : c ≠ '+' ∧ c ≠ '-' := by
  constructor <;> (rintro rfl; cases hc)

/-- What begins with a digit is read from there on. -/
theorem readUnsigned_of_digit {bound : Nat} {s : String} {c : Char} {rest : List Char}
    (hs : s.toList = c :: rest) (hc : c.isDigit = true) :
    readUnsigned bound s = readDigits bound .tooLarge 0 (c :: rest) := by
  obtain ⟨hplus, hminus⟩ := isDigit_ne_sign hc
  simp [readUnsigned, hs, hplus, hminus]

theorem readSigned_of_digit {bound : Nat} {s : String} {c : Char} {rest : List Char}
    (hs : s.toList = c :: rest) (hc : c.isDigit = true) :
    readSigned bound s = (readDigits bound .tooLarge 0 (c :: rest)).map Int.ofNat := by
  obtain ⟨hplus, hminus⟩ := isDigit_ne_sign hc
  simp [readSigned, hs, hplus, hminus]

/-- The digits of a number, the first of them apart. -/
theorem exists_digits (n : Nat) : ∃ c rest, (toString n).toList = c :: rest ∧
    (∀ d ∈ c :: rest, d.isDigit = true) ∧ Nat.ofDigitChars 10 (c :: rest) 0 = n := by
  have hlist : (toString n).toList = Nat.toDigits 10 n := by
    rw [Nat.toString_eq_ofList_toDigits, String.toList_ofList]
  obtain ⟨c, rest, hcons⟩ := List.exists_cons_of_ne_nil (Nat.toDigits_ne_nil (n := n) (b := 10))
  refine ⟨c, rest, hlist.trans hcons, fun d hd => ?_, ?_⟩
  · rw [← hcons] at hd
    exact Nat.isDigit_of_mem_toDigits (by decide) (by decide) hd
  · rw [← hcons]
    exact Nat.ofDigitChars_ten_toDigits

theorem readUnsigned_toString {bound n : Nat} (h : n ≤ bound) :
    readUnsigned bound (toString n) = .ok n := by
  obtain ⟨c, rest, hs, hdigits, hn⟩ := exists_digits n
  rw [readUnsigned_of_digit hs (hdigits c List.mem_cons_self), readDigits_eq hdigits (hn.symm ▸ h),
    hn]

theorem readSigned_toString {bound n : Nat} (h : n ≤ bound) :
    readSigned bound (toString n) = .ok (Int.ofNat n) := by
  obtain ⟨c, rest, hs, hdigits, hn⟩ := exists_digits n
  rw [readSigned_of_digit hs (hdigits c List.mem_cons_self), readDigits_eq hdigits (hn.symm ▸ h),
    hn]
  rfl

/-- No number above the bound is read. -/
theorem readUnsigned_le {bound n : Nat} {s : String} (h : readUnsigned bound s = .ok n) :
    n ≤ bound := by
  unfold readUnsigned at h
  split at h
  · cases h
  · cases h
  · cases h
  · exact readDigits_le (Nat.zero_le _) h
  · exact readDigits_le (Nat.zero_le _) h

theorem readSigned_le {bound : Nat} {n : Int} {s : String} (h : readSigned bound s = .ok n) :
    n.toNat ≤ bound := by
  have hplain : ∀ {cs}, (readDigits bound .tooLarge 0 cs).map Int.ofNat = .ok n →
      n.toNat ≤ bound := by
    intro cs hcs
    cases hd : readDigits bound .tooLarge 0 cs with
    | error fault => cases (congrArg (Except.map Int.ofNat) hd).symm.trans hcs
    | ok m =>
      obtain rfl := Except.ok.inj ((congrArg (Except.map Int.ofNat) hd).symm.trans hcs)
      exact readDigits_le (Nat.zero_le _) hd
  unfold readSigned at h
  split at h
  · cases h
  · cases h
  · cases h
  · exact hplain h
  · -- a number with a minus sign is not above zero
    rename_i cs _ _
    cases hd : readDigits (bound + 1) .tooSmall 0 cs with
    | error fault => cases (congrArg (Except.map fun n => -Int.ofNat n) hd).symm.trans h
    | ok m =>
      obtain rfl := Except.ok.inj ((congrArg (Except.map fun n => -Int.ofNat n) hd).symm.trans h)
      simp
  · exact hplain h

end Text

namespace Options

/-- The values that an option of a kind takes. -/
inductive Kind.Takes : Kind → Value → Prop
  | flag (b : Bool) : Takes .flag (.flag b)
  | text (s : String) : Takes .text (.text s)
  | unsigned {bound n : Nat} (h : n ≤ bound) : Takes (.unsigned bound) (.number n)
  | counted {bound n : Nat} (h : n ≤ bound) (hword : n ≤ Word.max63) :
      Takes (.counted bound) (.number n)

/-- The text that stands for a value. -/
def Value.written : Value → String
  | .flag b => if b then "true" else "false"
  | .text s => s
  | .number n => toString n

variable {kind : Kind} {v : Value} {s : String}

/-- **A value is read from its text.** -/
theorem Kind.Takes.read_written (h : kind.Takes v) : kind.read v.written = .ok v := by
  cases h with
  | flag b => cases b <;> simp [Kind.read, Value.written]
  | text s => rfl
  | unsigned h => simp only [Kind.read, Value.written, Text.readUnsigned_toString h]
  | counted h hword =>
    simp only [Kind.read, Value.written, Text.readSigned_toString hword]
    rw [if_pos ⟨Int.natCast_nonneg _, h⟩]
    rfl

/-- What is read is a value of the kind. -/
theorem Kind.takes_of_read (h : kind.read s = .ok v) : kind.Takes v := by
  cases kind with
  | flag =>
    unfold Kind.read at h
    dsimp only at h
    split at h
    · cases h
      exact .flag true
    · split at h
      · cases h
        exact .flag false
      · cases h
  | text =>
    cases h
    exact .text s
  | unsigned bound =>
    unfold Kind.read at h
    dsimp only at h
    split at h
    · rename_i n hn
      cases h
      exact .unsigned (Text.readUnsigned_le hn)
    · cases h
  | counted bound =>
    unfold Kind.read at h
    dsimp only at h
    split at h
    · cases h
    · rename_i n hn
      split at h
      · rename_i hle
        cases h
        exact .counted hle.2 (Text.readSigned_le hn)
      · cases h

end Options
end ProgressiveSearch
