import Dashboard.Files.Path

/-!
Programs over files. A program asks for one file operation after another, and for the time; it goes
on with each answer. What files there are is a matter of who answers.
-/
namespace Dashboard

/-- Why a file operation fails. -/
inductive FileFault where
  | missing | notDirectory | isDirectory | alreadyThere | tooLong | badName
  | other (text : String)
  deriving DecidableEq, Repr

def FileFault.text : FileFault → String
  | missing => "No such file or directory (os error 2)"
  | alreadyThere => "File exists (os error 17)"
  | notDirectory => "Not a directory (os error 20)"
  | isDirectory => "Is a directory (os error 21)"
  | tooLong => "File name too long (os error 36)"
  | badName => "file name contained an unexpected NUL byte"
  | other text => text

structure DirectoryEntry where
  name : String
  isDirectory : Bool
  deriving DecidableEq, Repr

inductive FileProgram (α : Type) where
  | done (value : α)
  | read (path : Path) (next : Except FileFault String → FileProgram α)
  | write (path : Path) (text : String) (next : Except FileFault Unit → FileProgram α)
  | makeDirectories (path : Path) (next : Except FileFault Unit → FileProgram α)
  | move (source target : Path) (next : Except FileFault Unit → FileProgram α)
  | entries (path : Path) (next : Except FileFault (List DirectoryEntry) → FileProgram α)
  | isFile (path : Path) (next : Bool → FileProgram α)
  /-- The time in milliseconds since the beginning of 1970. -/
  | time (next : Nat → FileProgram α)

namespace FileProgram

variable {α β γ : Type}

def bind (f : α → FileProgram β) : FileProgram α → FileProgram β
  | done value => f value
  | read path next => .read path fun answer => bind f (next answer)
  | write path text next => .write path text fun answer => bind f (next answer)
  | makeDirectories path next => .makeDirectories path fun answer => bind f (next answer)
  | move source target next => .move source target fun answer => bind f (next answer)
  | entries path next => .entries path fun answer => bind f (next answer)
  | isFile path next => .isFile path fun answer => bind f (next answer)
  | time next => .time fun answer => bind f (next answer)

instance : Monad FileProgram where
  pure := done
  bind p f := bind f p

theorem bind_done (p : FileProgram α) : bind done p = p := by
  induction p with
  | done => rfl
  | _ => simp only [bind]; congr 1; funext answer; apply_assumption

theorem bind_bind (p : FileProgram α) (f : α → FileProgram β) (g : β → FileProgram γ) :
    bind g (bind f p) = bind (fun a => bind g (f a)) p := by
  induction p with
  | done => rfl
  | _ => simp only [bind]; congr 1; funext answer; apply_assumption

instance : LawfulMonad FileProgram :=
  LawfulMonad.mk' FileProgram bind_done (fun _ _ => rfl) bind_bind

end FileProgram

end Dashboard
