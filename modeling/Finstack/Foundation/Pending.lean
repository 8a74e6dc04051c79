import Finstack.Foundation.RelyGuarantee

/-! # Uncommitted writes

A transaction reads the committed state with its own writes on top, long before it commits. When
its locks cover what its writes touch, what it has read of locked things is still true when it
commits: the transaction happens, in one piece, at its commit. `Does` says what it will have done
by then, as a relation between the state it is committed to and the state it leaves.
-/

namespace Finstack.Foundation.Discipline

open Locking

variable {Db Lock : Type} [Guarding Db Lock] [Locking Lock] {D : Discipline Db}
  {held more : List Lock} {w w' : Db → Db} {pend : Db → Db} {c c' : Db}

/-- Writes within these locks: what they leave of any one thing depends on that thing and on the
locked ones, and they leave everything else alone. -/
structure Writes (held : List Lock) (w : Db → Db) : Prop where
  congr : ∀ c c', (∀ l ∈ held, observe c l = observe c' l) →
    ∀ l, observe c l = observe c' l → observe (w c) l = observe (w c') l
  frame : ∀ c l, (∀ m ∈ held, conflicts m l = false) → observe c l = observe (w c) l

namespace Writes

theorem id (held : List Lock) : Writes held (fun db : Db => db) :=
  ⟨fun _ _ _ _ same => same, fun _ _ _ => rfl⟩

theorem mono (subset : ∀ l ∈ held, l ∈ more) (writes : Writes held w) : Writes more w :=
  ⟨fun c c' same => writes.congr c c' fun l member => same l (subset l member),
    fun c l free => writes.frame c l fun m member => free m (subset m member)⟩

theorem comp (first : Writes held w) (second : Writes held w') : Writes held (w' ∘ w) := by
  constructor
  · intro c c' same l here
    have between : ∀ m ∈ held, observe (w c) m = observe (w c') m :=
      fun m member => first.congr c c' same m (same m member)
    exact second.congr (w c) (w c') between l (first.congr c c' same l here)
  · intro c l free
    exact (first.frame c l free).trans (second.frame (w c) l free)

/-- The view under the writes changes only where the committed state does. -/
theorem view (writes : Writes held w) (same : ∀ l ∈ held, observe c l = observe c' l) :
    ∀ l ∈ held, observe (w c) l = observe (w c') l :=
  fun l member => writes.congr c c' same l (same l member)

end Writes

/-- A fact that only depends on what these locks guard. -/
def GuardedBy (held : List Lock) (P : Db → Prop) : Prop :=
  ∀ c c', (∀ l ∈ held, observe c l = observe c' l) → P c → P c'

omit [Locking Lock] in
theorem GuardedBy.mono {P : Db → Prop} (subset : ∀ l ∈ held, l ∈ more)
    (guarded : GuardedBy held P) : GuardedBy more P :=
  fun c c' same => guarded c c' fun l member => same l (subset l member)

omit [Locking Lock] in
theorem GuardedBy.and {P Q : Db → Prop} (left : GuardedBy held P) (right : GuardedBy held Q) :
    GuardedBy held fun c => P c ∧ Q c :=
  fun c c' same both => ⟨left c c' same both.1, right c c' same both.2⟩

omit [Locking Lock] in
theorem Rely.same {held : List Lock} (rely : D.Rely held c c') :
    ∀ l ∈ held, observe c l = observe c' l :=
  fun _ member => rely.guards member

/-- What a transaction saw of locked things stays true of its view. -/
theorem Writes.stays {P : Db → Prop} (writes : Writes held pend) (guarded : GuardedBy held P)
    (holds : P (pend c)) (rely : D.Rely held c c') : P (pend c') :=
  guarded _ _ (writes.view rely.same) holds

variable (D) in
/-- What the transaction will have done, from whatever state it is committed to. -/
def Does (held : List Lock) (pend : Db → Db) (c : Db) (T : Db → Db → Prop) : Prop :=
  ∀ c', D.inv c' → D.Rely held c c' → T c' (pend c')

/-- First `T`, then `write` where `P` holds. -/
def andThen (T : Db → Db → Prop) (P : Db → Prop) (write : Db → Db) (a b : Db) : Prop :=
  ∃ m, T a m ∧ P m ∧ b = write m

variable (D) in
/-- An open transaction: what it has locked covers what it has written, and `T` says what it will
have done. -/
structure Open (held : List Lock) (pend : Db → Db) (c : Db) (T : Db → Db → Prop) : Prop where
  writes : Writes held pend
  does : D.Does held pend c T

namespace Does

variable {T T' : Db → Db → Prop}

omit [Locking Lock] in
theorem nothing : D.Does held id c Eq := fun _ _ _ => rfl

omit [Locking Lock] in
theorem mono (imp : ∀ a b, D.inv a → T a b → T' a b) (does : D.Does held pend c T) :
    D.Does held pend c T' :=
  fun c' inv rely => imp _ _ inv (does c' inv rely)

omit [Locking Lock] in
/-- Time passes and more is locked. -/
theorem later (subset : ∀ l ∈ held, l ∈ more) (rely : D.Rely held c c')
    (does : D.Does held pend c T) : D.Does more pend c' T :=
  fun d inv after => does d inv (rely.trans (after.anti subset))

omit [Locking Lock] in
theorem and (left : D.Does held pend c T) (right : D.Does held pend c T') :
    D.Does held pend c fun a b => T a b ∧ T' a b :=
  fun c' inv rely => ⟨left c' inv rely, right c' inv rely⟩

/-- A write checked by a locked fact: the check holds again when the transaction commits. -/
theorem write {P : Db → Prop} (does : D.Does held pend c T) (writes : Writes held pend)
    (guarded : GuardedBy held P) (checked : P (pend c)) :
    D.Does held (w ∘ pend) c (andThen T P w) :=
  fun c' inv rely => ⟨pend c', does c' inv rely, writes.stays guarded checked rely, rfl⟩

end Does

namespace Open

variable {T T' : Db → Db → Prop}

theorem start : D.Open ([] : List Lock) id c Eq :=
  ⟨Writes.id [], Does.nothing⟩

theorem mono (imp : ∀ a b, D.inv a → T a b → T' a b) (opened : D.Open held pend c T) :
    D.Open held pend c T' :=
  ⟨opened.writes, opened.does.mono imp⟩

/-- Others commit, and this transaction locks more. -/
theorem later (subset : ∀ l ∈ held, l ∈ more) (rely : D.Rely held c c')
    (opened : D.Open held pend c T) : D.Open more pend c' T :=
  ⟨opened.writes.mono subset, opened.does.later subset rely⟩

/-- A locked fact seen now is still true of the view at commit. -/
theorem saw {P : Db → Prop} (opened : D.Open held pend c T) (guarded : GuardedBy held P)
    (seen : P (pend c)) : D.Open held pend c fun a b => T a b ∧ P b :=
  ⟨opened.writes, fun c' inv rely =>
    ⟨opened.does c' inv rely, opened.writes.stays guarded seen rely⟩⟩

/-- A write checked by a locked fact: the check holds again when the transaction commits. -/
theorem wrote {P : Db → Prop} (opened : D.Open held pend c T) (guarded : GuardedBy held P)
    (checked : P (pend c)) (write : Writes held w) :
    D.Open held (w ∘ pend) c (andThen T P w) :=
  ⟨opened.writes.comp write, opened.does.write opened.writes guarded checked⟩

/-- What the transaction will have done, were it to commit now. -/
theorem now (opened : D.Open held pend c T) (inv : D.inv c) : T c (pend c) :=
  opened.does c inv (.refl held c)

end Open

/-- The commit of an open transaction whose effect is an allowed change. -/
theorem Open.allowed {G T : Db → Db → Prop} (opened : D.Open held pend c T) (inv : D.inv c)
    (change : T c (pend c) → D.inv (pend c) ∧ G c (pend c)) : D.Allowed G held c (pend c) := by
  obtain ⟨allowed, own⟩ := change (opened.now inv)
  exact .inr ⟨allowed, own, opened.writes.frame c⟩

end Finstack.Foundation.Discipline
