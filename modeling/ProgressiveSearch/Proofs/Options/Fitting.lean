import ProgressiveSearch.Options.Reader
import ProgressiveSearch.Proofs.Options.Value

/-! # What a command line gives

However a command line and an environment are read, what they give to an option is a
value of its kind (`fits_read`).  A value enters in one of three places: with an option
that takes one, with a flag, and from a variable; nothing that was found is changed.
-/
namespace ProgressiveSearch.Options

variable {ι : Type} {t : Table ι}

/-- Everything found is of the kind of its option. -/
def Found.Fits (t : Table ι) (found : Found ι) : Prop :=
  ∀ entry ∈ found, (t.spec entry.1).kind.Takes entry.2

/-- Letters stand for flags only. -/
def Table.LettersAreFlags (t : Table ι) : Prop :=
  ∀ o c, (t.spec o).short = some c → (t.spec o).kind = .flag

/-- The second of two steps that may fail is taken after the first. -/
theorem bind_eq_ok {ε α β : Type} {x : Except ε α} {f : α → Except ε β} {b : β} :
    (x >>= f) = .ok b ↔ ∃ a, x = .ok a ∧ f a = .ok b := by
  cases x with
  | error e => exact ⟨nofun, nofun⟩
  | ok a =>
    constructor
    · exact fun h => ⟨a, rfl, h⟩
    · rintro ⟨a', ha, h⟩
      obtain rfl := Except.ok.inj ha
      exact h

section Found
variable {found : Found ι} {o : ι} {v : Value}

theorem Found.Fits.concat (h : found.Fits t) (hv : (t.spec o).kind.Takes v) :
    Found.Fits t (found ++ [(o, v)]) := by
  intro entry hentry
  rcases List.mem_append.mp hentry with hold | hnew
  · exact h entry hold
  · rw [List.mem_singleton.mp hnew]
    exact hv

/-- What an option was given is of its kind. -/
theorem Found.Fits.of_get? [DecidableEq ι] (h : found.Fits t) (hg : found.get? o = some v) :
    (t.spec o).kind.Takes v := by
  obtain ⟨front, back, rfl, -⟩ := List.lookup_eq_some_iff.mp hg
  exact h (o, v) (by simp)

end Found

/-- A letter of an option stands for its flag. -/
theorem kind_of_byLetter {o : ι} (ht : t.LettersAreFlags) {c : Char}
    (hc : t.byLetter c = some (.option o)) : (t.spec o).kind = .flag := by
  unfold Table.byLetter at hc
  split at hc
  · rename_i o' ho
    obtain rfl := Known.option.inj (Option.some.inj hc)
    exact ht _ c (by simpa using List.find?_some ho)
  · split at hc
    · cases hc
    · split at hc
      · cases hc
      · cases hc

namespace Reader

variable [DecidableEq ι] {r r' : Reader ι} {o : ι}

theorem fits_store (h : r.found.Fits t) {value : String} (hs : r.store t o value = .ok r') :
    r'.found.Fits t := by
  unfold store at hs
  split at hs
  · cases hs
  · split at hs
    · cases hs
    · rename_i v hv
      cases hs
      exact h.concat (Kind.takes_of_read hv)

theorem fits_settle (h : r.found.Fits t) (hs : r.settle t = .ok r') : r'.found.Fits t := by
  unfold settle at hs
  split at hs
  · cases hs
    exact h
  · cases hs
  · exact fits_store (r := { r with pending := none }) h hs

theorem fits_setFlag (h : r.found.Fits t) (hk : (t.spec o).kind = .flag)
    (hs : r.setFlag t o = .ok r') : r'.found.Fits t := by
  obtain ⟨settled, hsettled, hs⟩ := bind_eq_ok.mp hs
  split at hs
  · cases hs
  · cases hs
    exact (fits_settle h hsettled).concat (hk ▸ .flag true)

/-- Whoever tells about the program goes no further. -/
theorem tell_ne_ok {answer : Halt} : r.tell t answer ≠ .ok r' := by
  intro h
  obtain ⟨_, -, h⟩ := bind_eq_ok.mp h
  cases h

theorem fits_readLong (h : r.found.Fits t) {name : String} {attached : Option String}
    (hs : r.readLong t name attached = .ok r') : r'.found.Fits t := by
  unfold readLong at hs
  split at hs
  · cases hs
  · exact absurd hs tell_ne_ok
  · exact absurd hs tell_ne_ok
  · cases hs
  · cases hs
  · split at hs
    · exact fits_setFlag h ‹_› hs
    · cases hs
    · obtain ⟨settled, hsettled, hs⟩ := bind_eq_ok.mp hs
      exact fits_store (fits_settle h hsettled) hs
    · obtain ⟨settled, hsettled, hs⟩ := bind_eq_ok.mp hs
      cases hs
      have hfits := fits_settle h hsettled
      exact hfits

theorem fits_readLetters (ht : t.LettersAreFlags) {letters : List Char} (h : r.found.Fits t)
    (hs : r.readLetters t letters = .ok r') : r'.found.Fits t := by
  induction letters generalizing r with
  | nil =>
    cases hs
    exact h
  | cons c rest ih =>
    unfold readLetters at hs
    split at hs
    · cases hs
    · exact absurd hs tell_ne_ok
    · exact absurd hs tell_ne_ok
    · rename_i o hc
      obtain ⟨flagged, hflagged, hs⟩ := bind_eq_ok.mp hs
      exact ih (fits_setFlag h (kind_of_byLetter ht hc) hflagged) hs

theorem fits_read (ht : t.LettersAreFlags) {argument : String} (h : r.found.Fits t)
    (hs : r.read t argument = .ok r') : r'.found.Fits t := by
  unfold read at hs
  split at hs
  · cases hs
  · split at hs
    · cases hs
      exact h
    · exact fits_readLong h hs
    · exact fits_readLetters ht h hs
    · -- the argument is a value that is looked at later
      unfold readPlain at hs
      split at hs
      · cases hs
        exact h
      · cases hs

theorem fits_readAll (ht : t.LettersAreFlags) {arguments : List String} (h : r.found.Fits t)
    (hs : r.readAll t arguments = .ok r') : r'.found.Fits t := by
  induction arguments generalizing r with
  | nil => exact fits_settle h hs
  | cons argument rest ih =>
    obtain ⟨next, hnext, hs⟩ := bind_eq_ok.mp hs
    exact ih (fits_read ht h hnext) hs

theorem fits_readVariables {env : String → Option String} {options : List ι}
    {found found' : Found ι} (h : found.Fits t)
    (hs : readVariables t env found options = .ok found') : found'.Fits t := by
  induction options generalizing found with
  | nil =>
    cases hs
    exact h
  | cons o rest ih =>
    unfold readVariables at hs
    split at hs
    · exact ih h hs
    · split at hs
      · exact ih h hs
      · split at hs
        · cases hs
        · rename_i v hv
          exact ih (h.concat (Kind.takes_of_read hv)) hs

end Reader

/-- **What a command line and an environment give to an option is of its kind.** -/
theorem fits_read [DecidableEq ι] (ht : t.LettersAreFlags) {arguments : List String}
    {env : String → Option String} {found : Found ι} (h : read t arguments env = .ok found) :
    found.Fits t := by
  obtain ⟨r, hr, h⟩ := bind_eq_ok.mp h
  exact Reader.fits_readVariables (Reader.fits_readAll ht (by simp [Found.Fits, Reader.start]) hr) h

end ProgressiveSearch.Options
