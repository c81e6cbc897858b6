import Mathlib.Data.List.Nodup
import VisionLab.Lib.Mealy

/-! Machines that keep a value under every key, where an item reads and writes the value under its
own key only. Seen from one key, a pass over the items of a frame is at most one step. -/
namespace Slots

variable {S I O P κ V : Type*} [DecidableEq κ]

def itemOf (key : I → κ) (k : κ) (is : List I) : Option I := is.find? (fun i => decide (key i = k))

def about (tag : O → κ) (shape : O → P) (k : κ) (os : List O) : List P :=
  (os.filter (fun o => decide (tag o = k))).map shape

/-- Among the states in `Good`, an item answers about its own key, and its step is `own` on the value
under that key. -/
structure Local (step : S → I → List O × S) (key : I → κ) (tag : O → κ) (shape : O → P)
    (slot : κ → S → V) (own : V → I → List P × V) (Good : S → Prop) : Prop where
  good : ∀ s i, Good s → Good (step s i).2
  tagged : ∀ s i, Good s → ∀ o ∈ (step s i).1, tag o = key i
  other : ∀ s i k, Good s → key i ≠ k → slot k (step s i).2 = slot k s
  here : ∀ s i, Good s →
    ((step s i).1.map shape, slot (key i) (step s i).2) = own (slot (key i) s) i

/-- What a pass over a frame does under one key: `missed` where the frame has no item for it. -/
def watch (own : V → I → List P × V) (missed : V → V) (v : V) : Option I → List P × V
  | none => ([], missed v)
  | some i => own v i

theorem itemOf_key {key : I → κ} {k : κ} {is : List I} {i : I} (found : itemOf key k is = some i) :
    i ∈ is ∧ key i = k :=
  ⟨List.mem_of_find?_eq_some found, by simpa using List.find?_some found⟩

theorem itemOf_none {key : I → κ} {k : κ} {is : List I} :
    itemOf key k is = none ↔ k ∉ is.map key := by
  simp [itemOf, List.find?_eq_none]

theorem itemOf_eq_some {key : I → κ} {is : List I} (distinct : (is.map key).Nodup) {i : I}
    (member : i ∈ is) : itemOf key (key i) is = some i := by
  cases found : itemOf key (key i) is with
  | none => exact absurd (List.mem_map_of_mem member) (itemOf_none.mp found)
  | some j =>
    obtain ⟨there, same⟩ := itemOf_key found
    exact congrArg some (List.inj_on_of_nodup_map distinct there member same)

theorem once_of_distinct {key : I → κ} {is : List I} (distinct : (is.map key).Nodup) (k : κ) :
    (is.filter (fun i => decide (key i = k))).length ≤ 1 := by
  have ours : ((is.filter (fun i => decide (key i = k))).map key).Nodup :=
    distinct.sublist (List.filter_sublist.map key)
  have same : ∀ l ∈ (is.filter (fun i => decide (key i = k))).map key, l = k := by
    intro l listed
    obtain ⟨i, kept, rfl⟩ := List.mem_map.mp listed
    exact of_decide_eq_true (List.mem_filter.mp kept).2
  rw [List.eq_replicate_of_mem same, List.nodup_replicate, List.length_map] at ours
  exact ours

@[simp] theorem about_append (tag : O → κ) (shape : O → P) (k : κ) (os others : List O) :
    about tag shape k (os ++ others) = about tag shape k os ++ about tag shape k others := by
  simp [about]

theorem about_own {tag : O → κ} {k : κ} {os : List O} (tagged : ∀ o ∈ os, tag o = k)
    (shape : O → P) : about tag shape k os = os.map shape := by
  have all : os.filter (fun o => decide (tag o = k)) = os :=
    List.filter_eq_self.mpr (fun o ho => decide_eq_true (tagged o ho))
  simp only [about, all]

theorem about_other {tag : O → κ} {k l : κ} {os : List O} (tagged : ∀ o ∈ os, tag o = l)
    (apart : l ≠ k) (shape : O → P) : about tag shape k os = [] := by
  have none_ours : os.filter (fun o => decide (tag o = k)) = [] :=
    List.filter_eq_nil_iff.mpr (fun o ho => by simpa [tagged o ho] using apart)
  simp only [about, none_ours, List.map_nil]

theorem flatMap_once (p : I → Bool) (f : I → O) (is : List I) :
    is.flatMap (fun i => if p i = true then [f i] else []) = (is.filter p).map f := by
  induction is with
  | nil => rfl
  | cons i is ih => cases here : p i <;> simp [here, ih]

section Pass

variable {step : S → I → List O × S} {key : I → κ} {tag : O → κ} {shape : O → P}
  {slot : κ → S → V} {own : V → I → List P × V} {Good : S → Prop}

theorem run_slot (keyed : Local step key tag shape slot own Good) (k : κ) {s : S} (base : Good s)
    {is : List I} (once : (is.filter (fun i => decide (key i = k))).length ≤ 1) :
    (about tag shape k (Mealy.run step s is).1.flatten, slot k (Mealy.run step s is).2) =
      watch own (fun v => v) (slot k s) (itemOf key k is) := by
  induction is generalizing s with
  | nil => rfl
  | cons i is ih =>
    have tagged := keyed.tagged s i base
    simp only [Mealy.run_cons, List.flatten_cons, about_append]
    by_cases ours : key i = k
    · subst ours
      have alone : (is.filter (fun j => decide (key j = key i))).length = 0 := by simpa using once
      have rest := ih (keyed.good s i base) (by omega)
      have later : itemOf key (key i) is = none := by
        simpa [itemOf, List.find?_eq_none] using alone
      have first : itemOf key (key i) (i :: is) = some i := by simp [itemOf]
      have mine := keyed.here s i base
      simp only [later, watch, Prod.mk.injEq] at rest
      simp only [about_own tagged, rest.1, rest.2, List.append_nil, first, watch, mine]
    · have rest := ih (keyed.good s i base) (by simpa [ours] using once)
      have first : itemOf key k (i :: is) = itemOf key k is := by simp [itemOf, ours]
      rw [keyed.other s i k base ours] at rest
      simp only [about_other tagged ours, List.nil_append, rest, first]

omit [DecidableEq κ] in
theorem run_answers (keyed : Local step key tag shape slot own Good) {s : S} (base : Good s)
    {is : List I} (distinct : (is.map key).Nodup) :
    (Mealy.run step s is).1.flatten.map shape =
      is.flatMap (fun i => (own (slot (key i) s) i).1) := by
  induction is generalizing s with
  | nil => rfl
  | cons i is ih =>
    obtain ⟨fresh, distinct⟩ := List.nodup_cons.mp distinct
    have rest := ih (keyed.good s i base) distinct
    have untouched : ∀ j ∈ is, (own (slot (key j) (step s i).2) j).1 =
        (own (slot (key j) s) j).1 := by
      intro j hj
      have apart : key i ≠ key j := fun same => fresh (same ▸ List.mem_map_of_mem hj)
      rw [keyed.other s i (key j) base apart]
    simp only [Mealy.run_cons, List.flatten_cons, List.map_append, List.flatMap_cons, rest,
      List.flatMap_congr untouched, ← keyed.here s i base]

/-- A pass followed by a sweep over the keys that the frame does not have. -/
theorem pass_slot (keyed : Local step key tag shape slot own Good) (sweep : S → S)
    (missed : V → V) (k : κ) {s : S} (base : Good s) {is : List I}
    (once : (is.filter (fun i => decide (key i = k))).length ≤ 1)
    (swept : ∀ s, slot k (sweep s) = if k ∈ is.map key then slot k s else missed (slot k s)) :
    (about tag shape k (Mealy.run step s is).1.flatten,
        slot k (sweep (Mealy.run step s is).2)) =
      watch own missed (slot k s) (itemOf key k is) := by
  have pass := run_slot keyed k base once
  simp only [swept]
  cases found : itemOf key k is with
  | none =>
    have absent := itemOf_none.mp found
    simp only [found, watch, Prod.mk.injEq] at pass ⊢
    simp only [if_neg absent, pass.1, pass.2, and_self]
  | some i =>
    have present : k ∈ is.map key :=
      (itemOf_key found).2 ▸ List.mem_map_of_mem (itemOf_key found).1
    simpa only [if_pos present, found, watch] using pass

end Pass

end Slots
