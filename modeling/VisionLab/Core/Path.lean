import Mathlib.Data.List.Induction

/-! Paths of the file system, in the generic format with one separator. -/
namespace VisionLab

/-- A path as its root and its file names. An empty last name stands for a separator at the end. -/
@[ext]
structure Path where
  root : String := ""
  names : List String := []
  whole : ∀ name ∈ names, '/' ∉ name.toList
  inner : "" ∉ names.dropLast
  deriving DecidableEq

namespace Path

def here : Path where
  whole := fun _ member => absurd member List.not_mem_nil
  inner := List.not_mem_nil

def isEmpty (p : Path) : Bool := p.root == "" && p.names.isEmpty

def filename (p : Path) : String := p.names.getLast?.getD ""

def parentPath (p : Path) : Path where
  root := p.root
  names := p.names.dropLast
  whole := fun name member => p.whole name (List.dropLast_subset _ member)
  inner := fun member => p.inner (List.dropLast_subset _ member)

/-- The extension begins at the last dot, but a dot at the front begins none, and `..` has none. -/
def stemLength (name : List Char) : ℕ :=
  let behind := (name.reverse.takeWhile (fun c => c ≠ '.')).length
  if name.length ≤ behind + 1 ∨ name = ['.', '.'] then name.length
  else name.length - behind - 1

def stem (p : Path) : String :=
  String.ofList (p.filename.toList.take (stemLength p.filename.toList))

def extension (p : Path) : String :=
  String.ofList (p.filename.toList.drop (stemLength p.filename.toList))

def genericString (p : Path) : String := p.root ++ "/".intercalate p.names

def closed (names : List String) : List String :=
  if names.getLast? = some "" then names.dropLast else names

theorem closed_subset (names : List String) : closed names ⊆ names := by
  unfold closed
  split
  · exact List.dropLast_subset names
  · exact List.Subset.refl names

theorem notMem_closed {names : List String} (inner : "" ∉ names.dropLast) :
    "" ∉ closed names := by
  unfold closed
  split
  · exact inner
  · rename_i ended
    intro member
    cases names using List.reverseRecOn with
    | nil => cases member
    | append_singleton names last =>
      rw [List.dropLast_concat] at inner
      cases List.mem_append.mp member with
      | inl before => exact inner before
      | inr own =>
        rw [← List.mem_singleton.mp own] at ended
        exact ended (List.getLast?_concat ..)

theorem closed_dropLast {names : List String} (inner : "" ∉ names.dropLast) :
    closed names.dropLast = names.dropLast := by
  have ended : names.dropLast.getLast? ≠ some "" := by
    intro last
    exact inner (List.mem_of_getLast? last)
  simp only [closed, if_neg ended]

theorem closed_concat (names : List String) {name : String} (visible : name ≠ "") :
    closed (names ++ [name]) = names ++ [name] := by
  have ended : (names ++ [name]).getLast? ≠ some "" := by
    simpa only [List.getLast?_concat, ne_eq, Option.some.injEq] using visible
  simp only [closed, if_neg ended]

def child (p : Path) (name : String) (plain : '/' ∉ name.toList) : Path where
  root := p.root
  names := closed p.names ++ [name]
  whole := fun other member => (List.mem_append.mp member).elim
    (fun old => p.whole other (closed_subset _ old))
    (fun new => List.mem_singleton.mp new ▸ plain)
  inner := fun member => notMem_closed p.inner ((congrArg (List.Mem "") List.dropLast_concat).mp member)

def plus (p : Path) (text : String) (plain : '/' ∉ text.toList) : Path where
  root := p.root
  names := p.names.dropLast ++ [p.names.getLast?.getD "" ++ text]
  whole := by
    intro name member
    cases List.mem_append.mp member with
    | inl before => exact p.whole name (List.dropLast_subset _ before)
    | inr own =>
      rw [List.mem_singleton.mp own, String.toList_append]
      intro letter
      cases List.mem_append.mp letter with
      | inr new => exact plain new
      | inl old =>
        cases found : p.names.getLast? with
        | none =>
          rw [found] at old
          cases old
        | some last =>
          rw [found] at old
          exact p.whole last (List.mem_of_getLast? found) old
  inner := by
    rw [List.dropLast_concat]
    exact p.inner

theorem plus_ne (p : Path) {text : String} (some_ : text ≠ "") (plain : '/' ∉ text.toList) :
    p.plus text plain ≠ p := by
  intro same
  have names : p.names.dropLast ++ [p.names.getLast?.getD "" ++ text] = p.names :=
    congrArg Path.names same
  cases found : p.names.getLast? with
  | none =>
    rw [List.getLast?_eq_none_iff.mp found] at names
    cases names
  | some last =>
    have ends := congrArg List.getLast? names
    rw [List.getLast?_concat, found, Option.getD_some, Option.some.injEq] at ends
    have letters := congrArg String.length ends
    rw [String.length_append] at letters
    exact some_ (String.length_eq_zero_iff.mp (by omega))

theorem plain_filename (p : Path) : '/' ∉ p.filename.toList := by
  unfold filename
  cases found : p.names.getLast? with
  | none => exact List.not_mem_nil
  | some name => exact p.whole name (List.mem_of_getLast? found)

theorem plain_stem (p : Path) : '/' ∉ p.stem.toList := by
  intro member
  simp only [stem, String.toList_ofList] at member
  exact p.plain_filename (List.mem_of_mem_take member)

theorem child_inj {p q : Path} {name name' : String} {plain : '/' ∉ name.toList}
    {plain' : '/' ∉ name'.toList} (same : p.child name plain = q.child name' plain') :
    p.root = q.root ∧ closed p.names = closed q.names ∧ name = name' := by
  have root : (p.child name plain).root = (q.child name' plain').root := congrArg Path.root same
  have names : (p.child name plain).names = (q.child name' plain').names :=
    congrArg Path.names same
  obtain ⟨front, last⟩ := List.append_inj' names rfl
  exact ⟨root, front, List.singleton_inj.mp last⟩

end Path

end VisionLab
