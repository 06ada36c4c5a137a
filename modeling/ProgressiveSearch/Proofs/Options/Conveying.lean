import Mathlib.Data.List.Nodup
import Mathlib.Data.List.TakeWhile
import ProgressiveSearch.Options.Reader
import ProgressiveSearch.Proofs.Options.Value

/-! # What can be told to a program

A choice of values can be told to a program in many ways: each value either by an
argument of the command line or, if its option has one, by a variable of the environment
(`Table.Conveys`).  The arguments stand in any order, and what the variables of their
options hold does not matter.  A flag that is not set is told by no argument at all.

In whichever way a choice is told, the program reads it without a fault, and what it
finds is the choice (`read_conveyed`).  After a first part of the arguments the reader has
found just the values that they tell (`Reader.read_argument` for one of them).  The
variables then add right values only (`Reader.readVariables_sound`), and leave no option
without a value that has one (`Reader.readVariables_left`).
-/
namespace ProgressiveSearch.Options

variable {ι : Type} {t : Table ι}

/-- An option that may be left out: it has no value, or it is a flag that is not set. -/
def Omits (value : ι → Option Value) (o : ι) : Prop :=
  value o = none ∨ value o = some (.flag false)

namespace Table

/-- The options can be told apart by their names, and each name from what follows it. -/
structure WellNamed (t : Table ι) : Prop where
  listed : ∀ o, o ∈ t.options
  distinct : (t.options.map fun o => (t.spec o).name).Nodup
  nonempty : ∀ o ∈ t.options, (t.spec o).name.toList ≠ []
  no_equals : ∀ o ∈ t.options, '=' ∉ (t.spec o).name.toList

/-- The argument that gives an option a value. -/
def argument (t : Table ι) (o : ι) : Value → String
  | .flag _ => "--" ++ (t.spec o).name
  | v => "--" ++ (t.spec o).name ++ "=" ++ v.written

/-- The arguments that give options their values, in order. -/
def arguments (t : Table ι) (given : Found ι) : List String :=
  given.map fun entry => t.argument entry.1 entry.2

/-- The variable of an option holds the value.  Where there is no variable to be read, there is
no value either, or a flag that is not set. -/
def Told (t : Table ι) (value : ι → Option Value) (env : String → Option String) (o : ι) : Prop :=
  (t.spec o).variableName.bind env = (value o).map Value.written ∨
    (t.spec o).variableName.bind env = none ∧ value o = some (.flag false)

/-- **A choice of values is told**: some by arguments, each of them once, and the others by
variables. -/
structure Conveys [DecidableEq ι] (t : Table ι) (value : ι → Option Value) (given : Found ι)
    (env : String → Option String) : Prop where
  once : (given.map Prod.fst).Nodup
  argued : ∀ entry ∈ given, value entry.1 = some entry.2 ∧ entry.2 ≠ .flag false
  varied : ∀ o ∈ t.options, given.get? o = none → t.Told value env o

instance (value : ι → Option Value) (env : String → Option String) (o : ι) :
    Decidable (t.Told value env o) :=
  inferInstanceAs (Decidable (_ ∨ _))

instance [DecidableEq ι] (value : ι → Option Value) (given : Found ι)
    (env : String → Option String) : Decidable (t.Conveys value given env) :=
  decidable_of_iff
    ((given.map Prod.fst).Nodup ∧
      (∀ entry ∈ given, value entry.1 = some entry.2 ∧ entry.2 ≠ .flag false) ∧
      ∀ o ∈ t.options, given.get? o = none → t.Told value env o)
    ⟨fun ⟨once, argued, varied⟩ => ⟨once, argued, varied⟩,
      fun ⟨once, argued, varied⟩ => ⟨once, argued, varied⟩⟩

section
variable {value : ι → Option Value} {env : String → Option String} {o : ι}

/-- What a variable holds is the text of the value. -/
theorem Told.exists_of_some (h : t.Told value env o) {s : String}
    (hs : (t.spec o).variableName.bind env = some s) : ∃ v, value o = some v ∧ v.written = s := by
  rcases h with heq | ⟨hnone, -⟩
  · exact Option.map_eq_some_iff.mp (heq.symm.trans hs)
  · cases hnone.symm.trans hs

theorem Told.omits_of_none (h : t.Told value env o)
    (hnone : (t.spec o).variableName.bind env = none) : Omits value o := by
  rcases h with heq | ⟨-, hflag⟩
  · exact .inl (Option.map_eq_none_iff.mp (heq.symm.trans hnone))
  · exact .inr hflag

end

/-- The name of an option stands for it. -/
theorem WellNamed.byName_name (ht : t.WellNamed) (o : ι) :
    t.byName (t.spec o).name = some (.option o) := by
  have hfind : t.options.find? (fun o' => (t.spec o').name = (t.spec o).name) = some o := by
    cases h : t.options.find? fun o' => (t.spec o').name = (t.spec o).name with
    | none => simpa using List.find?_eq_none.mp h o (ht.listed o)
    | some o' =>
      have hname : (t.spec o').name = (t.spec o).name := by simpa using List.find?_some h
      rw [List.inj_on_of_nodup_map ht.distinct (ht.listed o') (ht.listed o) hname]
  rw [byName, hfind]

end Table

namespace Found

variable [DecidableEq ι] {found : Found ι} {value : ι → Option Value} {o : ι}

/-- What was found was chosen. -/
def Sound (found : Found ι) (value : ι → Option Value) : Prop :=
  ∀ o v, found.get? o = some v → value o = some v

/-- **What was found is what was chosen**: nothing else, and all that may not be left out. -/
structure Holds (found : Found ι) (value : ι → Option Value) : Prop where
  sound : found.Sound value
  complete : ∀ o, found.get? o = none → Omits value o

theorem has_eq_false (h : found.get? o = none) : found.has o = false := by
  simp [has, h]

theorem get?_concat (found : Found ι) (o o' : ι) (v : Value) :
    get? (found ++ [(o, v)]) o' = (found.get? o').or (if o' = o then some v else none) := by
  rw [get?, List.lookup_append, List.lookup_cons]
  by_cases h : o' = o
  · simp [h, get?]
  · simp [h, get?, beq_eq_false_iff_ne.mpr h]

theorem Sound.concat {v : Value} (h : found.Sound value) (hv : value o = some v) :
    Sound (found ++ [(o, v)]) value := by
  intro o' v' h'
  rw [get?_concat] at h'
  cases hold : found.get? o' with
  | some old =>
    obtain rfl : old = v' := by simpa [hold] using h'
    exact h o' old hold
  | none =>
    by_cases ho : o' = o
    · subst ho
      obtain rfl : v = v' := by simpa [hold] using h'
      exact hv
    · simp [hold, ho] at h'

namespace Holds

theorem get?_eq (h : found.Holds value) (o : ι) :
    found.get? o = value o ∨ found.get? o = none ∧ value o = some (.flag false) := by
  cases hg : found.get? o with
  | some v => exact .inl (h.sound o v hg).symm
  | none =>
    rcases h.complete o hg with hnone | hflag
    · exact .inl hnone.symm
    · exact .inr ⟨rfl, hflag⟩

/-- A value that cannot be left out was found. -/
theorem get?_eq_some {v : Value} (h : found.Holds value) (hv : value o = some v)
    (hset : v ≠ .flag false) : found.get? o = some v := by
  rcases h.get?_eq o with heq | ⟨-, hflag⟩
  · exact heq.trans hv
  · exact absurd (Option.some.inj (hv.symm.trans hflag)) hset

theorem text {s : String} (h : found.Holds value) (hv : value o = some (.text s))
    (fallback : String) : found.text o fallback = s := by
  simp [Found.text, h.get?_eq_some hv nofun]

theorem number {n : Nat} (h : found.Holds value) (hv : value o = some (.number n))
    (fallback : Nat) : found.number o fallback = n := by
  simp [Found.number, h.get?_eq_some hv nofun]

theorem number? {n : Option Nat} (h : found.Holds value) (hv : value o = n.map .number) :
    found.number? o = n := by
  cases n with
  | none =>
    have hnone : found.get? o = none := by
      rcases h.get?_eq o with heq | ⟨hnone, -⟩
      · exact heq.trans hv
      · exact hnone
    simp [Found.number?, hnone]
  | some n => simp [Found.number?, h.get?_eq_some hv nofun]

theorem flag {b : Bool} (h : found.Holds value) (hv : value o = some (.flag b)) :
    found.flag o = b := by
  rcases h.get?_eq o with heq | ⟨hnone, hflag⟩
  · simp [Found.flag, heq, hv]
  · obtain rfl : b = false := by simpa [hv] using hflag
    simp [Found.flag, hnone]

end Holds
end Found

namespace Reader

variable [DecidableEq ι] {found : Found ι}

theorem ne_equals {name : String} (h : '=' ∉ name.toList) :
    ∀ c ∈ name.toList, decide (c ≠ '=') = true :=
  fun _ hc => decide_eq_true (ne_of_mem_of_not_mem hc h)

/-- A name without an equals sign is all there is of an argument. -/
theorem splitAttached_name {name : String} (h : '=' ∉ name.toList) :
    splitAttached name.toList = (name, none) := by
  unfold splitAttached
  rw [List.takeWhile_eq_self_iff.mpr (ne_equals h), List.dropWhile_eq_nil_iff.mpr (ne_equals h),
    String.ofList_toList]

/-- It ends at the first equals sign, and the value is what follows, whatever that is. -/
theorem splitAttached_value {name : String} (h : '=' ∉ name.toList) (value : String) :
    splitAttached (name.toList ++ '=' :: value.toList) = (name, some value) := by
  unfold splitAttached
  rw [List.takeWhile_append_of_pos (ne_equals h), List.dropWhile_append_of_pos (ne_equals h)]
  simp

/-- What begins with two dashes and goes on is an option. -/
theorem read_long {argument : String} {rest : List Char}
    (h : argument.toList = '-' :: '-' :: rest) (hrest : rest ≠ []) :
    read t ⟨found, none, false⟩ argument =
      readLong t ⟨found, none, false⟩ (splitAttached rest).1 (splitAttached rest).2 := by
  obtain ⟨c, cs, rfl⟩ := List.exists_cons_of_ne_nil hrest
  simp [read, h]

section
variable {o : ι} {v : Value}

/-- A value is taken from its text the first time. -/
theorem store_written (hv : (t.spec o).kind.Takes v) (hnew : found.get? o = none) :
    store t ⟨found, none, false⟩ o v.written = .ok ⟨found ++ [(o, v)], none, false⟩ := by
  simp [store, Found.has_eq_false hnew, hv.read_written]

theorem readLong_flag (ht : t.WellNamed) (hk : (t.spec o).kind = .flag)
    (hnew : found.get? o = none) :
    readLong t ⟨found, none, false⟩ (t.spec o).name none =
      .ok ⟨found ++ [(o, .flag true)], none, false⟩ := by
  simp [readLong, ht.byName_name, hk, setFlag, settle, bind, Except.bind, Found.has_eq_false hnew]

theorem readLong_value (ht : t.WellNamed) (hk : (t.spec o).kind ≠ .flag)
    (hv : (t.spec o).kind.Takes v) (hnew : found.get? o = none) :
    readLong t ⟨found, none, false⟩ (t.spec o).name (some v.written) =
      .ok ⟨found ++ [(o, v)], none, false⟩ := by
  rw [← store_written hv hnew]
  simp only [readLong, ht.byName_name]
  rfl

/-- **One argument adds the value that it tells.** -/
theorem read_argument (ht : t.WellNamed) (hv : (t.spec o).kind.Takes v) (hset : v ≠ .flag false)
    (hnew : found.get? o = none) :
    read t ⟨found, none, false⟩ (t.argument o v) = .ok ⟨found ++ [(o, v)], none, false⟩ := by
  have hno := ht.no_equals o (ht.listed o)
  have hnonempty := ht.nonempty o (ht.listed o)
  have hvalue (hk : (t.spec o).kind ≠ .flag)
      (harg : t.argument o v = "--" ++ (t.spec o).name ++ "=" ++ v.written) :
      read t ⟨found, none, false⟩ (t.argument o v) = .ok ⟨found ++ [(o, v)], none, false⟩ := by
    have hchars : (t.argument o v).toList =
        '-' :: '-' :: ((t.spec o).name.toList ++ '=' :: v.written.toList) := by
      simp [harg]
    rw [read_long hchars (by simp), splitAttached_value hno]
    exact readLong_value ht hk hv hnew
  generalize hkind : (t.spec o).kind = kind at hv
  cases hv with
  | flag b =>
    obtain rfl : b = true := by simpa using hset
    have hchars : (t.argument o (.flag true)).toList = '-' :: '-' :: (t.spec o).name.toList := by
      simp [Table.argument]
    rw [read_long hchars hnonempty, splitAttached_name hno]
    exact readLong_flag ht hkind hnew
  | text s => exact hvalue (by simp [hkind]) rfl
  | unsigned h => exact hvalue (by simp [hkind]) rfl
  | counted h hword => exact hvalue (by simp [hkind]) rfl

end

/-- After the arguments, what they tell has been found. -/
theorem readAll_arguments (ht : t.WellNamed) {given : Found ι}
    (hgiven : ∀ entry ∈ given, (t.spec entry.1).kind.Takes entry.2 ∧ entry.2 ≠ .flag false)
    (honce : (given.map Prod.fst).Nodup) (hnew : ∀ entry ∈ given, found.get? entry.1 = none) :
    readAll t ⟨found, none, false⟩ (t.arguments given) = .ok ⟨found ++ given, none, false⟩ := by
  induction given generalizing found with
  | nil => simp [Table.arguments, readAll, settle]
  | cons entry rest ih =>
    obtain ⟨o, v⟩ := entry
    obtain ⟨⟨htakes, hset⟩, hgiven⟩ := List.forall_mem_cons.mp hgiven
    obtain ⟨hfirst, hnew⟩ := List.forall_mem_cons.mp hnew
    obtain ⟨hfresh, honce⟩ := List.nodup_cons.mp honce
    have hhead : read t ⟨found, none, false⟩ (t.argument o v) = .ok _ :=
      read_argument ht htakes hset hfirst
    have hrest : ∀ entry ∈ rest, Found.get? (found ++ [(o, v)]) entry.1 = none := by
      intro entry hmem
      have hne : entry.1 ≠ o := by
        rintro rfl
        exact hfresh (List.mem_map.mpr ⟨entry, hmem, rfl⟩)
      rw [Found.get?_concat, hnew entry hmem, if_neg hne]
      rfl
    have htail := ih hgiven honce hrest
    rw [List.append_assoc] at htail
    calc readAll t ⟨found, none, false⟩ (t.arguments ((o, v) :: rest))
        = (do readAll t (← read t ⟨found, none, false⟩ (t.argument o v)) (t.arguments rest)) := rfl
      _ = readAll t ⟨found ++ [(o, v)], none, false⟩ (t.arguments rest) := by rw [hhead]; rfl
      _ = .ok ⟨found ++ (o, v) :: rest, none, false⟩ := htail

/-- **The variables add right values only.** -/
theorem readVariables_sound {value : ι → Option Value} {env : String → Option String}
    (hvalue : ∀ o v, value o = some v → (t.spec o).kind.Takes v) (options : List ι)
    (htold : ∀ o, found.get? o = none → t.Told value env o) (hsound : found.Sound value) :
    ∃ found', readVariables t env found options = .ok found' ∧ found'.Sound value := by
  induction options generalizing found with
  | nil => exact ⟨found, rfl, hsound⟩
  | cons o rest ih =>
    unfold readVariables
    cases hfound : found.get? o with
    | some v =>
      -- it is there already, and what its variable holds does not matter
      rw [if_pos (by simp [Found.has, hfound])]
      exact ih htold hsound
    | none =>
      rw [if_neg (by simp [Found.has_eq_false hfound])]
      cases hvar : (t.spec o).variableName.bind env with
      | none => exact ih htold hsound
      | some s =>
        obtain ⟨v, hv, rfl⟩ := (htold o hfound).exists_of_some hvar
        simp only [(hvalue o v hv).read_written]
        refine ih (fun o' h => htold o' ?_) (hsound.concat hv)
        exact (Option.or_eq_none_iff.mp (Found.get?_concat found o o' v ▸ h)).1

/-- An option that is without a value in the end had none before, and none in a variable. -/
theorem readVariables_left {env : String → Option String} {options : List ι} {found' : Found ι}
    (h : readVariables t env found options = .ok found') {o : ι} (ho : found'.get? o = none) :
    found.get? o = none ∧ (o ∈ options → (t.spec o).variableName.bind env = none) := by
  induction options generalizing found with
  | nil =>
    obtain rfl := Except.ok.inj h
    exact ⟨ho, nofun⟩
  | cons o' rest ih =>
    unfold readVariables at h
    split at h
    · rename_i hhas
      obtain ⟨hnone, hrest⟩ := ih h
      refine ⟨hnone, fun hmem => hrest ((List.mem_cons.mp hmem).resolve_left ?_)⟩
      rintro rfl
      exact absurd hhas (by simp [Found.has_eq_false hnone])
    · split at h
      · rename_i hvar
        obtain ⟨hnone, hrest⟩ := ih h
        refine ⟨hnone, fun hmem => ?_⟩
        rcases List.mem_cons.mp hmem with rfl | hmem
        · exact hvar
        · exact hrest hmem
      · split at h
        · cases h
        · obtain ⟨hnone, hrest⟩ := ih h
          rw [Found.get?_concat, Option.or_eq_none_iff] at hnone
          refine ⟨hnone.1, fun hmem => hrest ((List.mem_cons.mp hmem).resolve_left fun heq => ?_)⟩
          simp [heq] at hnone

end Reader

/-- **A choice of values that is told is read**, in whichever way it is told. -/
theorem read_conveyed [DecidableEq ι] (ht : t.WellNamed) {value : ι → Option Value}
    (hvalue : ∀ o v, value o = some v → (t.spec o).kind.Takes v) {given : Found ι}
    {env : String → Option String} (h : t.Conveys value given env) :
    ∃ found, read t (t.arguments given) env = .ok found ∧ found.Holds value := by
  have harguments : Reader.readAll t .start (t.arguments given) = .ok ⟨given, none, false⟩ := by
    refine Reader.readAll_arguments ht (fun entry hmem => ?_) h.once fun _ _ => rfl
    obtain ⟨hv, hset⟩ := h.argued entry hmem
    exact ⟨hvalue _ _ hv, hset⟩
  have hsound : given.Sound value := by
    intro o v hv
    obtain ⟨front, back, hsplit, -⟩ := List.lookup_eq_some_iff.mp hv
    exact (h.argued (o, v) (by simp [hsplit])).1
  have htold : ∀ o, given.get? o = none → t.Told value env o := fun o => h.varied o (ht.listed o)
  obtain ⟨found, hread, hsound⟩ := Reader.readVariables_sound hvalue t.options htold hsound
  refine ⟨found, ?_, hsound, fun o ho => ?_⟩
  · rw [read, harguments]
    exact hread
  · obtain ⟨hnone, hvar⟩ := Reader.readVariables_left hread ho
    exact (htold o hnone).omits_of_none (hvar (ht.listed o))

end ProgressiveSearch.Options
