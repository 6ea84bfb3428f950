import Masthead.Proofs.Command.Arguments
import Masthead.Proofs.Config.Loading

/-! The course of a command up to its work. Taking the arguments apart and loading the configuration
change no file, however they end. -/

namespace Masthead.Command

namespace Run
variable {α β : Type} {x : Run α} {f : α → Run β}

/-- Whatever comes of it, the files and the directory are as they were. -/
def Observes (run : Run α) : Prop := ∀ w, (run w).2.tree = w.tree ∧ (run w).2.cwd = w.cwd

theorem observes_pure (a : α) : Observes (pure a) := fun _ => ⟨rfl, rfl⟩

theorem observes_stop (s : Stop) : Observes (stop s : Run α) := fun _ => ⟨rfl, rfl⟩

theorem Observes.bind (hx : Observes x) (hf : ∀ a, Observes (f a)) : Observes (x >>= f) :=
  bind_keeps (R := fun w w' => w'.tree = w.tree ∧ w'.cwd = w.cwd)
    (fun h h' => ⟨h'.1.trans h.1, h'.2.trans h.2⟩) hx hf

theorem observes_ofAct {act : Act α} (h : Act.Observes act) : Observes (ofAct act) := by
  intro w
  have hact := h w
  rw [ofAct]
  rcases hw : act w with ⟨_ | a, w'⟩ <;> rw [hw] at hact <;> exact hact

theorem observes_forM {f : α → Run PUnit} (hf : ∀ a, Observes (f a)) (l : List α) :
    Observes (l.forM f) := by
  induction l with
  | nil => exact observes_pure _
  | cons a l ih =>
    rw [List.forM_eq_forM, List.forM_cons]
    exact (hf a).bind fun _ => ih

theorem observes_configured {act : Act α} (h : Act.Observes act) : Observes (configured act) := by
  refine (observes_ofAct (Act.observes_compositional.attempt h)).bind fun r => ?_
  rcases r with e | a
  · cases e <;> exact observes_stop _
  · exact observes_pure _

end Run

open Run (Observes)

theorem observes_parsed [CommandLine] (i : Interface) (arguments : List Text) :
    Observes (parsed i arguments) := by
  intro w
  rw [parsed_eq]
  exact ⟨rfl, rfl⟩

theorem observes_loadConfig [Limits] [Toml.Library] [Painter] [CommandLine] (c : Console)
    (choice : Choice) (start : Path) : Observes (loadConfig c choice start) := by
  have hwarn (s : Text) : Observes (Run.ofAct (c.warn s)) := Run.observes_ofAct fun _ => ⟨rfl, rfl⟩
  refine (Run.observes_configured (Config.observes_load _ _ _ _)).bind fun config => ?_
  refine (Run.observes_forM (fun d => ?_) _).bind fun _ => ?_
  · split_ifs
    · exact Run.observes_pure ()
    · exact hwarn _
  · dsimp only
    split_ifs
    · exact (hwarn _).bind fun _ => Run.observes_pure config
    · exact Run.observes_pure config

end Masthead.Command
