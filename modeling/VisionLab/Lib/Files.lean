import Mathlib.Data.List.Infix
import Mathlib.Logic.Function.Basic
import VisionLab.Lib.CrashLogic

/-! Files under names, and a program that reads, writes and renames them while the system may refuse
any of it. A stream that was written to may keep the end of what it was given until it is closed. -/
namespace Files

variable {Name Byte : Type}

abbrev Disk (Name Byte : Type) := Name → Option (List Byte)

inductive Request (Name Byte : Type) where
  | exists_ (name : Name)
  | read (name : Name)
  | makeFolder (name : Name)
  | create (name : Name)
  | append (name : Name) (bytes : List Byte)
  | close (name : Name) (held : List Byte)
  | rename (source target : Name)
  | remove (name : Name)

/-- What the program learns: whether a request was carried out, what a file holds, what a stream
still keeps. -/
def Answer : Request Name Byte → Type
  | .exists_ _ | .makeFolder _ | .create _ | .rename _ _ | .remove _ => Bool
  | .read _ | .append _ _ => Option (List Byte)
  | .close _ _ => Unit

abbrev FileProgram (Name Byte : Type) := Crash.Program (Request Name Byte) Answer

inductive Mishap where
  | look | read | size | folder | create | append | flush | rename | remove
  deriving DecidableEq

abbrev noMishap : Mishap → Prop := fun _ => False

section Requests

open Crash.Program (request)

def exists_ (name : Name) : FileProgram Name Byte Bool := request (Request.exists_ name)

def read (name : Name) : FileProgram Name Byte (Option (List Byte)) := request (Request.read name)

def makeFolder (name : Name) : FileProgram Name Byte Bool := request (Request.makeFolder name)

def create (name : Name) : FileProgram Name Byte Bool := request (Request.create name)

def append (name : Name) (bytes : List Byte) : FileProgram Name Byte (Option (List Byte)) :=
  request (Request.append name bytes)

def close (name : Name) (held : List Byte) : FileProgram Name Byte Unit :=
  request (Request.close name held)

def rename (source target : Name) : FileProgram Name Byte Bool :=
  request (Request.rename source target)

def remove (name : Name) : FileProgram Name Byte Bool := request (Request.remove name)

end Requests

variable [DecidableEq Name]

/-- What a system does with a request, if only the mishaps in `may` happen there. What it refuses
leaves the disk as it is, but for a write, of which any part may get through. -/
def Effect (may : Mishap → Prop) (d : Disk Name Byte) :
    (r : Request Name Byte) → Answer r → Disk Name Byte → Prop
  | .exists_ name, found, after => after = d ∧ (found = (d name).isSome ∨ found = false ∧ may .look)
  | .read name, got, after =>
    after = d ∧ (got = d name ∨ got = none ∧ may .read ∨ got = some [] ∧ may .size)
  | .makeFolder _, ok, after => after = d ∧ (ok = true ∨ ok = false ∧ may .folder)
  | .create name, ok, after =>
    ok = true ∧ after = Function.update d name (some []) ∨ ok = false ∧ after = d ∧ may .create
  | .append name bytes, held, after =>
    ∃ old front rest, d name = some old ∧ bytes = front ++ rest ∧
      after = Function.update d name (some (old ++ front)) ∧
        (held = some rest ∨ held = none ∧ may .append)
  | .close name held, _, after =>
    ∃ old front lost, d name = some old ∧ held = front ++ lost ∧
      after = Function.update d name (some (old ++ front)) ∧ (lost = [] ∨ may .flush)
  | .rename source target, ok, after =>
    (∃ content, d source = some content ∧ ok = true ∧
      after = Function.update (Function.update d source none) target (some content)) ∨
    ok = false ∧ after = d ∧ (d source = none ∨ may .rename)
  | .remove name, ok, after =>
    ok = (d name).isSome ∧ after = Function.update d name none ∨
      ok = false ∧ after = d ∧ may .remove

section Rules

open Crash

variable {may : Mishap → Prop} {I : Disk Name Byte → Prop} {α : Type} {Q : α → Disk Name Byte → Prop}
  {d : Disk Name Byte} {name : Name}

theorem always_exists {next : Bool → FileProgram Name Byte α} (now : I d)
    (looked : Always (Effect may) I Q (next (d name).isSome) d)
    (overlooked : may .look → Always (Effect may) I Q (next false) d) :
    Always (Effect may) I Q (exists_ name >>= next) d := by
  refine ⟨now, ?_⟩
  rintro found _ ⟨rfl, rfl | ⟨rfl, h⟩⟩
  · exact looked
  · exact overlooked h

theorem always_read {next : Option (List Byte) → FileProgram Name Byte α} (now : I d)
    (content : Always (Effect may) I Q (next (d name)) d)
    (unread : may .read → Always (Effect may) I Q (next none) d)
    (unsized : may .size → Always (Effect may) I Q (next (some [])) d) :
    Always (Effect may) I Q (read name >>= next) d := by
  refine ⟨now, ?_⟩
  rintro got _ ⟨rfl, rfl | ⟨rfl, h⟩ | ⟨rfl, h⟩⟩
  · exact content
  · exact unread h
  · exact unsized h

theorem always_makeFolder {next : Bool → FileProgram Name Byte α} (now : I d)
    (made : Always (Effect may) I Q (next true) d)
    (refused : may .folder → Always (Effect may) I Q (next false) d) :
    Always (Effect may) I Q (makeFolder name >>= next) d := by
  refine ⟨now, ?_⟩
  rintro ok _ ⟨rfl, rfl | ⟨rfl, h⟩⟩
  · exact made
  · exact refused h

theorem always_create {next : Bool → FileProgram Name Byte α} (now : I d)
    (created : Always (Effect may) I Q (next true) (Function.update d name (some [])))
    (refused : may .create → Always (Effect may) I Q (next false) d) :
    Always (Effect may) I Q (create name >>= next) d := by
  refine ⟨now, ?_⟩
  rintro ok _ (⟨rfl, rfl⟩ | ⟨rfl, rfl, h⟩)
  · exact created
  · exact refused h

theorem always_append {next : Option (List Byte) → FileProgram Name Byte α} {bytes old : List Byte}
    (there : d name = some old) (now : I d)
    (appended : ∀ front rest, bytes = front ++ rest →
      Always (Effect may) I Q (next (some rest)) (Function.update d name (some (old ++ front))))
    (cut : may .append → ∀ front rest, bytes = front ++ rest →
      Always (Effect may) I Q (next none) (Function.update d name (some (old ++ front)))) :
    Always (Effect may) I Q (append name bytes >>= next) d := by
  refine ⟨now, ?_⟩
  rintro held _ ⟨old', front, rest, there', parts, rfl, ended⟩
  obtain rfl := Option.some.inj (there.symm.trans there')
  obtain rfl | ⟨rfl, h⟩ := ended
  · exact appended front rest parts
  · exact cut h front rest parts

theorem always_close {next : Unit → FileProgram Name Byte α} {held old : List Byte}
    (there : d name = some old) (now : I d)
    (closed : ∀ front lost, held = front ++ lost → lost = [] ∨ may .flush →
      Always (Effect may) I Q (next ()) (Function.update d name (some (old ++ front)))) :
    Always (Effect may) I Q (close name held >>= next) d := by
  refine ⟨now, ?_⟩
  rintro ⟨⟩ _ ⟨old', front, lost, there', parts, rfl, h⟩
  obtain rfl := Option.some.inj (there.symm.trans there')
  exact closed front lost parts h

theorem always_rename {next : Bool → FileProgram Name Byte α} {source target : Name}
    {content : List Byte} (there : d source = some content) (now : I d)
    (renamed : Always (Effect may) I Q (next true)
      (Function.update (Function.update d source none) target (some content)))
    (notRenamed : may .rename → Always (Effect may) I Q (next false) d) :
    Always (Effect may) I Q (rename source target >>= next) d := by
  refine ⟨now, ?_⟩
  rintro ok _ (⟨content', there', rfl, rfl⟩ | ⟨rfl, rfl, missing | h⟩)
  · obtain rfl := Option.some.inj (there.symm.trans there')
    exact renamed
  · exact absurd (there.symm.trans missing) (Option.some_ne_none content)
  · exact notRenamed h

theorem always_remove {next : Bool → FileProgram Name Byte α} (now : I d)
    (removed : Always (Effect may) I Q (next (d name).isSome) (Function.update d name none))
    (notRemoved : may .remove → Always (Effect may) I Q (next false) d) :
    Always (Effect may) I Q (remove name >>= next) d := by
  refine ⟨now, ?_⟩
  rintro ok _ (⟨rfl, rfl⟩ | ⟨rfl, rfl, h⟩)
  · exact removed
  · exact notRemoved h

/- Where nothing goes wrong, a look at a file and the reading of it have one answer each. -/

variable {ok : Request Name Byte → Prop}

theorem asks_exists {next : Bool → FileProgram Name Byte α} (allowed : ok (.exists_ name))
    (looked : Asks (Effect noMishap) ok Q (next (d name).isSome) d) :
    Asks (Effect noMishap) ok Q (exists_ name >>= next) d := by
  refine ⟨allowed, ?_⟩
  rintro found _ ⟨rfl, rfl | ⟨-, ⟨⟩⟩⟩
  exact looked

theorem asks_read {next : Option (List Byte) → FileProgram Name Byte α}
    (allowed : ok (.read name)) (content : Asks (Effect noMishap) ok Q (next (d name)) d) :
    Asks (Effect noMishap) ok Q (read name >>= next) d := by
  refine ⟨allowed, ?_⟩
  rintro got _ ⟨rfl, rfl | ⟨-, ⟨⟩⟩ | ⟨-, ⟨⟩⟩⟩
  exact content

end Rules

end Files
