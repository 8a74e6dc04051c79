import Finstack.Foundation.Facts

/-! # What stays known

What no commit undoes is still so after any code, whatever else is known of what the code does.
-/

namespace Finstack.Foundation.Discipline

open Locking

variable {Db Lock Err α : Type} [Guarding Db Lock] [Locking Lock] {D : Discipline Db} {G : Db → Db → Prop}
  {P : Db → Prop} {held : List Lock} {pend : Db → Db} {c c' : Db}

omit [Locking Lock] in
theorem Rely.keep (stable : ∀ {c c'}, D.inv c → D.change c c' → P c → P c') (rely : D.Rely held c c')
    (here : P c) : P c' := by
  induction rely with
  | refl => exact here
  | tail _ step ih => exact stable step.1 step.2.1 ih

theorem Allowed.keep {locks : List Lock} (own : ∀ {c c'}, D.inv c → D.inv c' → G c c' → P c → P c')
    (inv : D.inv c) (allowed : D.Allowed G locks c c') (here : P c) : P c' := by
  rcases allowed with rfl | ⟨inv', guaranteed, -⟩
  · exact here
  · exact own inv inv' guaranteed here

theorem Safe.keep {Q : α → List Lock → (Db → Db) → Db → Prop} {p : Prog Db Lock α}
    (stable : ∀ {c c'}, D.inv c → D.change c c' → P c → P c')
    (own : ∀ {c c'}, D.inv c → D.inv c' → G c c' → P c → P c') (safe : D.Safe G Q p held pend c)
    (here : P c) : D.Safe G (fun a held pend c => Q a held pend c ∧ P c) p held pend c := by
  induction p generalizing held pend c with
  | ret a => exact ⟨safe, here⟩
  | stmt locks write next ih => exact fun c' inv rely => ih _ (safe c' inv rely) (rely.keep stable here)
  | auto locks write next ih =>
    intro c' inv rely free
    obtain ⟨allowed, rest⟩ := safe c' inv rely free
    exact ⟨allowed, ih _ rest (allowed.keep own inv (rely.keep stable here))⟩
  | commit next ih =>
    intro c' inv rely
    obtain ⟨allowed, rest⟩ := safe c' inv rely
    exact ⟨allowed, ih rest (allowed.keep own inv (rely.keep stable here))⟩
  | rollback next ih => exact fun c' inv rely => ih (safe c' inv rely) (rely.keep stable here)

/-- What was known before is known afterwards. -/
theorem Leads.keep {mode : Mode} {T : Db → Db → Prop} {F : D.Fact} {x : Txn Db Lock Err α}
    {U : α → Db → Db → Prop} {R : α → D.Fact} {stable : ∀ {c c'}, D.inv c → D.change c c' → P c → P c'}
    (own : ∀ {c c'}, D.inv c → D.inv c' → G c c' → P c → P c') (leads : D.Leads G mode T F x U R) :
    D.Leads G mode T (F.and (.ofStable P stable)) x U fun a => (R a).and (.ofStable P stable) := by
  rintro held pend c inv here ⟨known, kept⟩
  refine Safe.mono ?_ ((leads held pend c inv here known).keep stable own kept)
  rintro (e | a) held' pend' c' ⟨ends, still⟩
  · exact ends
  · exact ⟨ends.1, ends.2.1, ends.2.2, still⟩

end Finstack.Foundation.Discipline
