import VisionLab.Core.Path
import VisionLab.Lib.Files

/-! The files of a built engine. A plan is written under a temporary name and then given its own, so
that a process that ends in the middle leaves no half of it there. -/
namespace VisionLab

abbrev EngineDisk := Files.Disk Path UInt8

namespace EngineFiles

open Files

abbrev Action := FileProgram Path UInt8

def joinError (prefix_ : String) (path : Path) : String := prefix_ ++ path.genericString

theorem joinError_ne {prefix_ : String} (spoken : prefix_ ≠ "") (path : Path) :
    joinError prefix_ path ≠ "" := by
  intro silent
  exact spoken (String.append_eq_empty_iff.mp silent).1

theorem tmp_plain : '/' ∉ ".tmp".toList := by decide

def tmpPath (dest : Path) : Path := dest.plus ".tmp" tmp_plain

theorem tmpPath_ne (dest : Path) : tmpPath dest ≠ dest := dest.plus_ne (by decide) tmp_plain

/- A file that was opened and has no size counts as an empty one. -/
def readBinaryFile (path : Path) : Action (Except String (List UInt8)) := do
  match ← read path with
  | none => return .error (joinError "failed to read: " path)
  | some [] => return .error (joinError "empty file: " path)
  | some bytes => return .ok bytes

/-- The name a plan ends up under; where a system does not rename onto a file, that file goes
first. -/
def publish (tmp dest : Path) : Action Bool := do
  let renamed ← rename tmp dest
  if renamed then return true
  else
    let _ ← remove dest
    rename tmp dest

/- Whether the stream could be written to is asked before it is closed. What it still holds is written
by its destructor, and whether that went well is not asked. -/
def persistCache (dest : Path) (data : List UInt8) : Action (Except String Unit) := do
  let folder ← makeFolder dest.parentPath
  if !folder then return .error "failed to create TensorRT cache directory"
  else
    let opened ← create (tmpPath dest)
    if !opened then return .error "failed to open TensorRT cache temp file"
    else
      match ← append (tmpPath dest) data with
      | none =>
        let _ ← remove (tmpPath dest)
        return .error "failed to write TensorRT cache temp file"
      | some held =>
        close (tmpPath dest) held
        let published ← publish (tmpPath dest) dest
        if published then return .ok ()
        else
          let _ ← remove (tmpPath dest)
          return .error "failed to publish TensorRT cache file"

def modelPresent (modelPath : Path) : Action Bool :=
  if modelPath.isEmpty then pure false else exists_ modelPath

def discardCache (dest : Path) : Action Unit := do
  let _ ← remove dest

section Persist

open Crash Function

variable {may : Mishap → Prop} {planned : List UInt8 → Prop} {data : List UInt8} {dest : Path}
  {d₀ d : EngineDisk}

/-- A file with a plan in it, or with the front of one, if its end was lost when the stream was
closed. -/
def Stored (may : Mishap → Prop) (planned : List UInt8 → Prop) (content : Option (List UInt8)) : Prop :=
  ∃ data front, planned data ∧ content = some front ∧ front <+: data ∧ (front = data ∨ may .flush)

/-- What a process that began on the disk `d₀` may leave behind. -/
structure Left (may : Mishap → Prop) (planned : List UInt8 → Prop) (dest : Path)
    (d₀ d : EngineDisk) : Prop where
  cached : d dest = d₀ dest ∨ d dest = none ∨ Stored may planned (d dest)
  others : ∀ name, name ≠ dest → name ≠ tmpPath dest → d name = d₀ name

theorem Left.refl (d : EngineDisk) : Left may planned dest d d where
  cached := Or.inl rfl
  others := fun _ _ _ => rfl

theorem Left.tmp (left : Left may planned dest d₀ d) (content : Option (List UInt8)) :
    Left may planned dest d₀ (update d (tmpPath dest) content) where
  cached := by
    rw [update_of_ne (tmpPath_ne dest).symm]
    exact left.cached
  others := by
    intro name other notTmp
    rw [update_of_ne notTmp]
    exact left.others name other notTmp

theorem Left.named (left : Left may planned dest d₀ d) {content : Option (List UInt8)}
    (fine : content = none ∨ Stored may planned content) :
    Left may planned dest d₀ (update d dest content) where
  cached := by
    rw [update_self]
    exact Or.inr fine
  others := by
    intro name other notTmp
    rw [update_of_ne other]
    exact left.others name other notTmp

theorem Left.trans {built : List UInt8 → Prop} {d' : EngineDisk} (left : Left may planned dest d₀ d)
    (further : Left may built dest d d') (plans : ∀ data, built data → planned data) :
    Left may planned dest d₀ d' where
  cached := by
    obtain same | gone | ⟨data, front, plan, stored⟩ := further.cached
    · rw [same]
      exact left.cached
    · exact Or.inr (Or.inl gone)
    · exact Or.inr (Or.inr ⟨data, front, plans data plan, stored⟩)
  others := by
    intro name other notTmp
    exact (further.others name other notTmp).trans (left.others name other notTmp)

theorem publish_left {content : List UInt8} (left : Left may planned dest d₀ d)
    (written : d (tmpPath dest) = some content) (stored : Stored may planned (some content)) :
    Always (Effect may) (Left may planned dest d₀)
      (fun published d => published = true → d dest = some content)
      (publish (tmpPath dest) dest) d := by
  have renamed : ∀ d : EngineDisk, Left may planned dest d₀ d →
      Left may planned dest d₀ (update (update d (tmpPath dest) none) dest (some content)) :=
    fun d left => (left.tmp none).named (Or.inr stored)
  have last : ∀ d : EngineDisk, Left may planned dest d₀ d → d (tmpPath dest) = some content →
      Always (Effect may) (Left may planned dest d₀)
        (fun published d => published = true → d dest = some content)
        (rename (tmpPath dest) dest) d := by
    intro d left written
    change Always _ _ _ (rename (tmpPath dest) dest >>= pure) d
    refine always_rename written left ?_ ?_
    · exact ⟨renamed d left, fun _ => update_self ..⟩
    · exact fun _ => ⟨left, nofun⟩
  refine always_rename written left ?_ ?_
  · exact ⟨renamed d left, fun _ => update_self ..⟩
  · intro _
    refine always_remove left ?_ ?_
    · refine last _ (left.named (Or.inl rfl)) ?_
      rw [update_of_ne (tmpPath_ne dest)]
      exact written
    · exact fun _ => last d left written

/-- What the writing reports: a plan under its name, or a reason. -/
def Reported (may : Mishap → Prop) (planned : List UInt8 → Prop) (dest : Path)
    (result : Except String Unit) (after : EngineDisk) : Prop :=
  (result = .ok () → Stored may planned (after dest)) ∧ ∀ text, result = .error text → text ≠ ""

theorem fails_left {text : String} (spoken : text ≠ "") (left : Left may planned dest d₀ d) :
    Always (Effect may) (Left may planned dest d₀) (Reported may planned dest)
      (pure (.error text) : Action (Except String Unit)) d := by
  refine ⟨left, nofun, ?_⟩
  rintro _ ⟨⟩
  exact spoken

theorem discards_left {text : String} (spoken : text ≠ "") (left : Left may planned dest d₀ d) :
    Always (Effect may) (Left may planned dest d₀) (Reported may planned dest)
      (remove (tmpPath dest) >>= fun _ => pure (.error text) : Action (Except String Unit)) d :=
  always_remove left (fails_left spoken (left.tmp none)) (fun _ => fails_left spoken left)

/-- Wherever the process ends, the name of the plan stands for what it stood for before, for nothing,
or for the plan. -/
theorem persistCache_left (left : Left may planned dest d₀ d) (plan : planned data) :
    Always (Effect may) (Left may planned dest d₀) (Reported may planned dest)
      (persistCache dest data) d := by
  refine always_makeFolder left ?_ (fun _ => fails_left (by decide) left)
  refine always_create left ?_ (fun _ => fails_left (by decide) left)
  have emptied := left.tmp (some [])
  refine always_append (update_self ..) emptied ?_ ?_
  · intro front rest parts
    have taken := emptied.tmp (some ([] ++ front))
    refine always_close (update_self ..) taken ?_
    intro behind lost split whole
    have full := taken.tmp (some ([] ++ front ++ behind))
    have stored : Stored may planned (some ([] ++ front ++ behind)) := by
      refine ⟨data, _, plan, rfl, ⟨lost, ?_⟩, ?_⟩
      · rw [parts, split, List.nil_append, List.append_assoc]
      · refine whole.imp_left (fun nothing => ?_)
        rw [parts, split, nothing, List.nil_append, List.append_nil]
    refine always_bind.mpr ((publish_left full (update_self ..) stored).mono (fun _ => id) ?_)
    intro published after left ended
    cases published with
    | true =>
      refine ⟨left, fun _ => ?_, nofun⟩
      rw [ended rfl]
      exact stored
    | false => exact discards_left (by decide) left
  · intro _ front rest _
    exact discards_left (by decide) (emptied.tmp _)

theorem always_modelPresent {α : Type} {I : EngineDisk → Prop} {Q : α → EngineDisk → Prop}
    {path : Path} {next : Bool → Action α} (now : I d)
    (present : path.isEmpty = false → d path ≠ none → Always (Effect may) I Q (next true) d)
    (missing : path.isEmpty = true ∨ d path = none ∨ may .look →
      Always (Effect may) I Q (next false) d) :
    Always (Effect may) I Q (modelPresent path >>= next) d := by
  unfold modelPresent
  split
  · exact missing (Or.inl ‹_›)
  · rename_i named
    refine always_exists now ?_ (fun h => missing (Or.inr (Or.inr h)))
    cases there : d path with
    | none => exact missing (Or.inr (Or.inl there))
    | some bytes => exact present (by simpa using named) (there ▸ Option.some_ne_none bytes)

theorem always_readBinaryFile {α : Type} {I : EngineDisk → Prop} {Q : α → EngineDisk → Prop}
    {path : Path} {next : Except String (List UInt8) → Action α} (now : I d)
    (content : ∀ bytes, d path = some bytes → bytes ≠ [] →
      Always (Effect may) I Q (next (.ok bytes)) d)
    (fails : ∀ text, text ≠ "" → d path = none ∨ d path = some [] ∨ may .read ∨ may .size →
      Always (Effect may) I Q (next (.error text)) d) :
    Always (Effect may) I Q (readBinaryFile path >>= next) d := by
  have unread : joinError "failed to read: " path ≠ "" := joinError_ne (by decide) path
  have empty : joinError "empty file: " path ≠ "" := joinError_ne (by decide) path
  refine always_read now ?_ ?_ ?_
  · cases there : d path with
    | none => exact fails _ unread (Or.inl there)
    | some bytes =>
      cases bytes with
      | nil => exact fails _ empty (Or.inr (Or.inl there))
      | cons byte bytes => exact content _ there (List.cons_ne_nil _ _)
  · exact fun h => fails _ unread (Or.inr (Or.inr (Or.inl h)))
  · exact fun h => fails _ empty (Or.inr (Or.inr (Or.inr h)))

theorem asks_readBinaryFile {α : Type} {ok : Request Path UInt8 → Prop} {Q : α → EngineDisk → Prop}
    {path : Path} {blob : List UInt8} {next : Except String (List UInt8) → Action α}
    (allowed : ok (.read path)) (there : d path = some blob) (some_ : blob ≠ [])
    (holds : Asks (Effect noMishap) ok Q (next (.ok blob)) d) :
    Asks (Effect noMishap) ok Q (readBinaryFile path >>= next) d := by
  refine asks_bind (asks_read allowed ?_)
  rw [there]
  cases blob with
  | nil => exact absurd rfl some_
  | cons => exact holds

end Persist

end EngineFiles

end VisionLab
