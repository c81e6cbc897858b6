import Mathlib.Data.List.Nodup

/-! Lists of values under keys, where a value given to a key that is present takes the place of the
old one. -/
namespace Keyed

variable {κ β : Type*} [DecidableEq κ]

def put (key : κ) (value : β) : List (κ × β) → List (κ × β)
  | [] => [(key, value)]
  | entry :: rest =>
    if entry.1 = key then (entry.1, value) :: rest else entry :: put key value rest

def puts (entries : List (κ × β)) (l : List (κ × β)) : List (κ × β) :=
  entries.foldl (fun l entry => put entry.1 entry.2 l) l

theorem put_absent {key : κ} (value : β) {l : List (κ × β)} (absent : key ∉ l.map Prod.fst) :
    put key value l = l ++ [(key, value)] := by
  induction l with
  | nil => rfl
  | cons entry rest ih =>
    simp only [List.map_cons, List.mem_cons, not_or] at absent
    simp [put, Ne.symm absent.1, ih absent.2]

theorem put_put (key : κ) (value other : β) (l : List (κ × β)) :
    put key value (put key other l) = put key value l := by
  induction l with
  | nil => simp [put]
  | cons entry rest ih =>
    by_cases here : entry.1 = key
    · simp [put, here]
    · simp [put, here, ih]

theorem put_keys (key : κ) (value : β) (l : List (κ × β)) : (put key value l).map Prod.fst =
    if key ∈ l.map Prod.fst then l.map Prod.fst else l.map Prod.fst ++ [key] := by
  induction l with
  | nil => simp [put]
  | cons entry rest ih =>
    by_cases here : entry.1 = key
    · simp [put, here]
    · simp only [put, here, if_false, List.map_cons, ih, List.mem_cons, Ne.symm here, false_or]
      split <;> rfl

theorem put_nodup {l : List (κ × β)} (distinct : (l.map Prod.fst).Nodup) (key : κ) (value : β) :
    ((put key value l).map Prod.fst).Nodup := by
  rw [put_keys]
  split
  · exact distinct
  · rename_i absent
    simpa [List.nodup_append] using ⟨distinct, fun other value member same =>
      absent (List.mem_map.mpr ⟨(other, value), member, same⟩)⟩

theorem puts_nodup (entries : List (κ × β)) {l : List (κ × β)}
    (distinct : (l.map Prod.fst).Nodup) : ((puts entries l).map Prod.fst).Nodup := by
  induction entries generalizing l with
  | nil => exact distinct
  | cons entry entries ih => exact ih (put_nodup distinct entry.1 entry.2)

theorem puts_of_nodup (entries l : List (κ × β))
    (distinct : ((l ++ entries).map Prod.fst).Nodup) : puts entries l = l ++ entries := by
  induction entries generalizing l with
  | nil => simp [puts]
  | cons entry entries ih =>
    have absent : entry.1 ∉ l.map Prod.fst := by
      intro present
      simp only [List.map_append, List.nodup_append] at distinct
      exact distinct.2.2 _ present _ (by simp) rfl
    have appended : puts (entry :: entries) l = puts entries (l ++ [entry]) := by
      simp [puts, put_absent _ absent]
    rw [appended, ih _ (by simpa using distinct)]
    simp

end Keyed
