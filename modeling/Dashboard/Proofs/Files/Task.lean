import Dashboard.Files.Task
import Dashboard.Proofs.Files.Tree

/-!
Tasks carried out on a tree of files. A task that meets no fault of the file system goes on with
every answer as the tree gives it.
-/
namespace Dashboard

variable {α β : Type}

theorem FileProgram.run_bind (now : Nat) (f : α → FileProgram β) (p : FileProgram α)
    (t : FileTree) : (p.bind f).run now t = (f (p.run now t).1).run now (p.run now t).2 := by
  induction p generalizing t with
  | done => rfl
  | _ => simp only [bind, run]; apply_assumption

theorem FileProgram.run_read (now : Nat) (path : Path)
    (next : Except FileFault String → FileProgram α) (t : FileTree) :
    (FileProgram.read path next).run now t = (next (t.read path)).run now t := rfl

theorem FileProgram.run_entries (now : Nat) (path : Path)
    (next : Except FileFault (List DirectoryEntry) → FileProgram α) (t : FileTree) :
    (FileProgram.entries path next).run now t = (next (t.entries path)).run now t := rfl

namespace FileTask

variable {now : Nat} {t t' : FileTree}

/-- What comes of a task on a tree, at a time that does not pass. -/
def perform (now : Nat) (task : FileTask α) (t : FileTree) : Except Failure α × FileTree :=
  FileProgram.run now task.run t

/-- A fault of the file system as a result. -/
def isFault : Except Failure α → Bool
  | .error (.io _) => true
  | _ => false

theorem perform_ofExcept (result : Except Failure α) :
    perform now (ofExcept result) t = (result, t) := rfl

theorem perform_now : perform now FileTask.now t = (.ok now, t) := rfl

theorem perform_write (path : Path) (text : String) : perform now (write path text) t =
    ((t.write path text).2.mapError fun fault => .io fault.text, (t.write path text).1) := rfl

theorem perform_makeDirectories (path : Path) : perform now (makeDirectories path) t =
    ((t.makeDirectories path).2.mapError fun fault => .io fault.text,
      (t.makeDirectories path).1) := rfl

theorem perform_move (source goal : Path) : perform now (move source goal) t =
    ((t.move source goal).2.mapError fun fault => .io fault.text, (t.move source goal).1) := rfl

theorem perform_entries (path : Path) : perform now (entries path) t =
    ((t.entries path).mapError fun fault => .io fault.text, t) := rfl

theorem perform_readOr_of_missing {path : Path} (missing : t.read path = .error .missing)
    (absent : Except Failure String) : perform now (readOr absent path) t = (absent, t) := by
  rw [perform, readOr, ExceptT.run_mk, FileProgram.run_read, missing]
  rfl

theorem perform_readOr {path : Path} (other : t.read path ≠ .error .missing)
    (absent : Except Failure String) : perform now (readOr absent path) t =
      ((t.read path).mapError fun fault => .io fault.text, t) := by
  rw [perform, readOr, ExceptT.run_mk, FileProgram.run_read]
  split
  · next missing => exact absurd missing other
  · rfl

theorem perform_entriesIfThere_of_missing {path : Path}
    (missing : t.entries path = .error .missing) :
    perform now (entriesIfThere path) t = (.ok [], t) := by
  rw [perform, entriesIfThere, ExceptT.run_mk, FileProgram.run_entries, missing]
  rfl

theorem perform_entriesIfThere {path : Path} (other : t.entries path ≠ .error .missing) :
    perform now (entriesIfThere path) t =
      ((t.entries path).mapError fun fault => .io fault.text, t) := by
  rw [perform, entriesIfThere, ExceptT.run_mk, FileProgram.run_entries]
  split
  · next missing => exact absurd missing other
  · rfl

theorem perform_bind (task : FileTask α) (f : α → FileTask β) : perform now (task >>= f) t =
    match perform now task t with
    | (.ok a, t') => perform now (f a) t'
    | (.error e, t') => (.error e, t') := by
  rw [perform, ExceptT.run_bind]
  refine (FileProgram.run_bind now _ task.run t).trans ?_
  rw [perform]
  rcases FileProgram.run now task.run t with ⟨_ | _, _⟩ <;> rfl

theorem perform_bind_of_ok {task : FileTask α} {f : α → FileTask β} {a : α}
    (h : perform now task t = (.ok a, t')) : perform now (task >>= f) t = perform now (f a) t' := by
  rw [perform_bind, h]

theorem perform_bind_of_error {task : FileTask α} {f : α → FileTask β} {e : Failure}
    (h : perform now task t = (.error e, t')) : perform now (task >>= f) t = (.error e, t') := by
  rw [perform_bind, h]

/-- A task that comes to no fault has not begun with one. -/
theorem isFault_of_bind {task : FileTask α} {f : α → FileTask β}
    (calm : isFault (perform now (task >>= f) t).1 = false) :
    isFault (perform now task t).1 = false := by
  cases first : perform now task t with
  | mk result after =>
    cases result with
    | ok => rfl
    | error e =>
      rw [perform_bind_of_error first] at calm
      cases e <;> exact calm

/-- Where nothing comes to a fault, a file operation at the beginning has had its answer. -/
theorem perform_bind_of_not_isFault {task : FileTask α} {f : α → FileTask β}
    {answer : Except FileFault α}
    (asked : perform now task t = (answer.mapError fun fault => .io fault.text, t'))
    (calm : isFault (perform now (task >>= f) t).1 = false) :
    ∃ a, answer = .ok a ∧ perform now (task >>= f) t = perform now (f a) t' := by
  cases answer with
  | ok a => exact ⟨a, rfl, perform_bind_of_ok asked⟩
  | error fault =>
    rw [perform_bind_of_error asked] at calm
    cases calm

end FileTask

end Dashboard
