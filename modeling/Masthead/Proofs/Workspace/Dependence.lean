import Masthead.Proofs.Workspace.Making

/-! What work on files depends on. Looking, reading, writing and making directories hang on the
files and the directory of the program alone, and fail for reasons of their own. -/

namespace Masthead
namespace Act
variable {α β : Type} {x : Act α} {f : α → Act β}

/-- Work on files in which git has no part: it hangs on the files and the directory alone, does not
change how git answers, and never fails as git does. -/
structure OnFiles (x : Act α) : Prop where
  same : ∀ w v, v.tree = w.tree → v.cwd = w.cwd →
    (x v).1 = (x w).1 ∧ (x v).2.tree = (x w).2.tree ∧ (x v).2.cwd = (x w).2.cwd
  faults : ∀ w e, (x w).1 ≠ .error (.git e)
  git : ∀ w, (x w).2.git = w.git

theorem Looks.onFiles (h : Looks x) (hfaults : ∀ w e, (x w).1 ≠ .error (.git e)) : OnFiles x where
  same w v htree hcwd := by
    rw [h.still w, h.still v]
    exact ⟨(h w).2 v htree hcwd, htree, hcwd⟩
  faults := hfaults
  git w := by rw [h.still w]

theorem OnFiles.pure (a : α) : OnFiles (pure a : Act α) :=
  (looks_compositional.pure a).onFiles (by rintro w e ⟨⟩)

theorem OnFiles.fail {e : Fault} (h : ∀ g, e ≠ .git g) : OnFiles (throw e : Act α) :=
  (looks_compositional.fail e).onFiles fun _ g heq => h g (Except.error.inj heq)

theorem OnFiles.fileFault (e : Tree.Error) (p : Path) : OnFiles (Act.fileFault e p : Act α) :=
  .fail (by rintro g ⟨⟩)

theorem OnFiles.bind (hx : OnFiles x) (hf : ∀ a, OnFiles (f a)) : OnFiles (x >>= f) where
  same w v htree hcwd := by
    obtain ⟨hresult, htree, hcwd⟩ := hx.same w v htree hcwd
    rw [bind_apply, bind_apply]
    rcases hw : x w with ⟨r, w'⟩
    rcases hv : x v with ⟨r', v'⟩
    rw [hw, hv] at hresult htree hcwd
    obtain rfl : r' = r := hresult
    cases r' with
    | error e => exact ⟨rfl, htree, hcwd⟩
    | ok a => exact (hf a).same w' v' htree hcwd
  faults w e h := by
    rcases bind_fst_eq_error.mp h with h | ⟨a, -, h⟩
    · exact hx.faults w e h
    · exact (hf a).faults _ e h
  git := bind_keeps (R := fun w w' => w'.git = w.git) (fun h h' => h'.trans h) hx.git
    fun a => (hf a).git

theorem OnFiles.attempt_bind {f : Except Fault α → Act β} (hx : OnFiles x)
    (hf : ∀ r, (∀ e, r ≠ .error (.git e)) → OnFiles (f r)) : OnFiles (attempt x >>= f) where
  same w v htree hcwd := by
    obtain ⟨hresult, htree, hcwd⟩ := hx.same w v htree hcwd
    rw [bind_of_ok f (attempt_apply x v), bind_of_ok f (attempt_apply x w), hresult]
    exact (hf _ (hx.faults w)).same _ _ htree hcwd
  faults w := by
    rw [bind_of_ok f (attempt_apply x w)]
    exact (hf _ (hx.faults w)).faults _
  git w := by
    rw [bind_of_ok f (attempt_apply x w)]
    exact ((hf _ (hx.faults w)).git _).trans (hx.git w)

theorem onFiles_setTree (f : Tree → Tree) : OnFiles (setTree f) where
  same w v htree hcwd := ⟨rfl, congrArg f htree, hcwd⟩
  faults w e := by rintro ⟨⟩
  git _ := rfl

theorem onFiles_log (level : Log.Level) (message : Text) : OnFiles (log level message) where
  same w v htree hcwd := by
    obtain ⟨errors, hw⟩ := log_eq level message w
    obtain ⟨errors', hv⟩ := log_eq level message v
    rw [hw, hv]
    exact ⟨rfl, htree, hcwd⟩
  faults w e := by
    obtain ⟨errors, hw⟩ := log_eq level message w
    rw [hw]
    rintro ⟨⟩
  git w := by
    obtain ⟨errors, hw⟩ := log_eq level message w
    rw [hw]

section Files
variable (p : Path)

theorem onFiles_find : OnFiles (find p) :=
  (looks_find p).onFiles fun w e h => by
    rw [find_eq] at h
    split_ifs at h
    cases h

theorem onFiles_lookUp : OnFiles (lookUp p) :=
  (looks_lookUp p).onFiles fun w e h => by
    rw [lookUp_eq] at h
    cases seen_eq_error h

theorem onFiles_isThere : OnFiles (isThere p) :=
  ((onFiles_lookUp p).bind fun _ => .pure _).bind fun _ => .pure _

theorem onFiles_isDir : OnFiles (isDir p) :=
  ((onFiles_lookUp p).bind fun _ => .pure _).bind fun _ => .pure _

theorem onFiles_isLink : OnFiles (isLink p) :=
  (looks_isLink p).onFiles fun w e h => by
    rw [isLink_eq] at h
    cases h

theorem onFiles_readText : OnFiles (readText p) := by
  refine (((onFiles_find p).bind fun found => ?_).bind fun bytes => ?_).bind fun text => .pure _
  · rcases found with e | ⟨place, _ | _ | _ | _⟩
    · exact .fileFault _ _
    · exact .fileFault _ _
    · exact .pure _
    · exact .fileFault _ _
    · exact .fileFault _ _
  · cases Utf8.decode bytes with
    | error e => exact .fail (by rintro g ⟨⟩)
    | ok text => exact .pure _

theorem onFiles_makeOne : OnFiles (makeOne p) := by
  refine (onFiles_isDir p).bind fun isDir => ?_
  split_ifs
  · exact .pure _
  · refine (onFiles_isLink p).bind fun isLink => ?_
    split_ifs
    · exact .fileFault _ _
    · refine (onFiles_find p).bind fun found => ?_
      rcases found with e | ⟨place, _ | t⟩
      · exact .fileFault _ _
      · exact onFiles_setTree _
      · exact .fileFault _ _

theorem onFiles_makeDirs (above : Nat) : OnFiles (makeDirs p above) := by
  induction above generalizing p with
  | zero => exact .fileFault _ _
  | succ above ih =>
    refine (onFiles_makeOne p).attempt_bind fun made hmade => ?_
    split
    · exact .pure _
    · exact (ih p.parent).bind fun _ => onFiles_makeOne p
    · exact .fail fun e he => hmade e (by rw [he])

theorem onFiles_writeText (s : Text) : OnFiles (writeText p s) := by
  refine (onFiles_find p).bind fun found => ?_
  rcases found with e | ⟨place, _ | _ | _ | _⟩
  · exact .fileFault _ _
  · exact onFiles_setTree _
  · exact onFiles_setTree _
  · exact .fileFault _ _
  · exact onFiles_setTree _

theorem onFiles_makeExecutable : OnFiles (makeExecutable p) := by
  refine (onFiles_find p).bind fun found => ?_
  rcases found with e | ⟨place, _ | _ | _ | _⟩
  · exact .pure _
  · exact .pure _
  · exact onFiles_setTree _
  · exact .pure _
  · exact .pure _

end Files
end Act

end Masthead
