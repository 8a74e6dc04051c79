import Finstack.Foundation.ReadCommitted

/-! # Rely and guarantee for database programs

A lock keeps one observation of the database unchanged for its holder. A discipline is what one
party relies on: what holds of every committed state (`inv`) and what the others may commit
(`change`). A program is safe when each of its own commits is what it guarantees and leaves alone
what others may have locked, provided the others keep the discipline and leave its locks alone.
Safety is a recursion on the program, so a function is verified by following its text once; when
everybody's guarantee is within what everybody else relies on, `Sound.reaches` turns the safety of
every client into facts about every interleaving.
-/

namespace Finstack.Foundation

open Locking Relation

/-- What each lock is about. -/
class Guarding (Db : Type) (Lock : outParam Type) where
  Seen : Type
  observe : Db → Lock → Seen

export Guarding (observe)

/-- What one party relies on. -/
structure Discipline (Db : Type) where
  inv : Db → Prop
  change : Db → Db → Prop
  inv_change : ∀ {c c' : Db}, inv c → change c c' → inv c'

namespace Discipline

variable {Db Lock : Type} [Guarding Db Lock] (D : Discipline Db)

/-- One commit of another client, seen by a client with these locks. -/
def Interferes (held : List Lock) (c c' : Db) : Prop :=
  D.inv c ∧ D.change c c' ∧ ∀ l ∈ held, observe c l = observe c' l

/-- What other clients may have committed meanwhile. -/
def Rely (held : List Lock) : Db → Db → Prop :=
  ReflTransGen (D.Interferes held)

variable {D}

@[refl] theorem Rely.refl (held : List Lock) (c : Db) : D.Rely held c c := ReflTransGen.refl

theorem Rely.trans {held : List Lock} {a b c : Db} (first : D.Rely held a b)
    (second : D.Rely held b c) : D.Rely held a c :=
  ReflTransGen.trans first second

/-- Fewer locks allow more interference. -/
theorem Rely.anti {held more : List Lock} {c c' : Db} (subset : ∀ l ∈ held, l ∈ more)
    (rely : D.Rely more c c') : D.Rely held c c' := by
  induction rely with
  | refl => exact Rely.refl held c
  | tail _ step ih =>
    obtain ⟨inv, change, kept⟩ := step
    exact ReflTransGen.tail ih ⟨inv, change, fun l member => kept l (subset l member)⟩

/-- A lock keeps what it guards. -/
theorem Rely.guards {held : List Lock} {c c' : Db} (rely : D.Rely held c c') {l : Lock}
    (member : l ∈ held) : observe c l = observe c' l := by
  induction rely with
  | refl => rfl
  | tail _ step ih => exact ih.trans (step.2.2 l member)

/-- A fact that every allowed commit keeps survives the interference. -/
theorem Rely.stable {held : List Lock} {c c' : Db} {P : Db → Prop}
    (keep : ∀ {a b : Db}, D.inv a → D.change a b → P a → P b) (rely : D.Rely held c c')
    (holds : P c) : P c' := by
  induction rely with
  | refl => exact holds
  | tail _ step ih => exact keep step.1 step.2.1 ih

/-- A transitive relation that contains every allowed commit contains the interference. -/
theorem Rely.lift {held : List Lock} {c c' : Db} {R : Db → Db → Prop} (refl : ∀ a, R a a)
    (trans : ∀ {a b d : Db}, R a b → R b d → R a d)
    (single : ∀ {a b : Db}, D.inv a → D.change a b → R a b) (rely : D.Rely held c c') : R c c' := by
  induction rely with
  | refl => exact refl c
  | tail _ step ih => exact trans ih (single step.1 step.2.1)

variable (D) [Locking Lock]

/-- A commit that this client may make: nothing happens, or a change that `G` describes, that keeps
the invariant and leaves alone whatever its locks do not exclude others from guarding. -/
def Allowed (G : Db → Db → Prop) (held : List Lock) (c c' : Db) : Prop :=
  c' = c ∨ (D.inv c' ∧ G c c' ∧
    ∀ l, (∀ m ∈ held, conflicts m l = false) → observe c l = observe c' l)

/-- The program keeps the discipline from here on, whatever the others do, and `Q` holds where it
ends. `G` describes its own commits. -/
def Safe {α : Type} (G : Db → Db → Prop) (Q : α → List Lock → (Db → Db) → Db → Prop) :
    Prog Db Lock α → List Lock → (Db → Db) → Db → Prop
  | .ret a, held, pend, c => Q a held pend c
  | .stmt locks write next, held, pend, c => ∀ c', D.inv c' → D.Rely held c c' →
      Safe G Q (next (pend c')) (locks ++ held) (write (pend c') ∘ pend) c'
  | .auto locks write next, held, pend, c => ∀ c', D.inv c' → D.Rely held c c' →
      (∀ l ∈ locks, ∀ m ∈ held, conflicts l m = false) →
      D.Allowed G locks c' (write c') ∧ Safe G Q (next c') held pend (write c')
  | .commit next, held, pend, c => ∀ c', D.inv c' → D.Rely held c c' →
      D.Allowed G held c' (pend c') ∧ Safe G Q next [] id (pend c')
  | .rollback next, held, _, c => ∀ c', D.inv c' → D.Rely held c c' → Safe G Q next [] id c'

variable {D} {α β : Type} {G : Db → Db → Prop} {Q : α → List Lock → (Db → Db) → Db → Prop}

/-- A commit that leaves alone what this client has locked is interference. -/
theorem Rely.of_change {locks held : List Lock} {c c' : Db} (inv : D.inv c)
    (change : c' = c ∨ D.change c c')
    (frame : ∀ l, (∀ m ∈ locks, conflicts m l = false) → observe c l = observe c' l)
    (free : ∀ l ∈ locks, ∀ m ∈ held, conflicts l m = false) : D.Rely held c c' := by
  rcases change with rfl | change
  · exact .refl held _
  · exact ReflTransGen.single
      ⟨inv, change, fun m mine => frame m fun l theirs => free l theirs m mine⟩

theorem Safe.mono {Q' : α → List Lock → (Db → Db) → Db → Prop}
    (imp : ∀ a held pend c, Q a held pend c → Q' a held pend c) {p : Prog Db Lock α}
    {held : List Lock} {pend : Db → Db} {c : Db} (safe : D.Safe G Q p held pend c) :
    D.Safe G Q' p held pend c := by
  induction p generalizing held pend c with
  | ret a => exact imp a held pend c safe
  | stmt locks write next ih => exact fun c' inv rely => ih _ (safe c' inv rely)
  | auto locks write next ih =>
    exact fun c' inv rely free => ⟨(safe c' inv rely free).1, ih _ (safe c' inv rely free).2⟩
  | commit next ih => exact fun c' inv rely => ⟨(safe c' inv rely).1, ih (safe c' inv rely).2⟩
  | rollback next ih => exact fun c' inv rely => ih (safe c' inv rely)

/-- Two postconditions of one program hold together. -/
theorem Safe.and {Q' : α → List Lock → (Db → Db) → Db → Prop} {p : Prog Db Lock α}
    {held : List Lock} {pend : Db → Db} {c : Db} (first : D.Safe G Q p held pend c)
    (second : D.Safe G Q' p held pend c) :
    D.Safe G (fun a held pend c => Q a held pend c ∧ Q' a held pend c) p held pend c := by
  induction p generalizing held pend c with
  | ret a => exact ⟨first, second⟩
  | stmt locks write next ih => exact fun c' inv rely => ih _ (first c' inv rely) (second c' inv rely)
  | auto locks write next ih =>
    exact fun c' inv rely free =>
      ⟨(first c' inv rely free).1, ih _ (first c' inv rely free).2 (second c' inv rely free).2⟩
  | commit next ih =>
    exact fun c' inv rely =>
      ⟨(first c' inv rely).1, ih (first c' inv rely).2 (second c' inv rely).2⟩
  | rollback next ih => exact fun c' inv rely => ih (first c' inv rely) (second c' inv rely)

/-- Sequencing: the rest is safe wherever the first part ends. -/
theorem safe_bind {R : β → List Lock → (Db → Db) → Db → Prop} {p : Prog Db Lock α}
    {f : α → Prog Db Lock β} {held : List Lock} {pend : Db → Db} {c : Db} :
    D.Safe G R (p.bind f) held pend c ↔
      D.Safe G (fun a held pend c => D.Safe G R (f a) held pend c) p held pend c := by
  induction p generalizing held pend c with
  | ret a => rfl
  | stmt locks write next ih => simp only [Prog.bind, Safe, ih]
  | auto locks write next ih => simp only [Prog.bind, Safe, ih]
  | commit next ih => simp only [Prog.bind, Safe, ih]
  | rollback next ih => simp only [Prog.bind, Safe, ih]

/-- A safe program stays safe under interference, if its postcondition does. -/
theorem Safe.rely (closed : ∀ a held pend c c', D.Rely held c c' → Q a held pend c →
      Q a held pend c') {p : Prog Db Lock α} {held : List Lock} {pend : Db → Db} {c c' : Db}
    (rely : D.Rely held c c') (safe : D.Safe G Q p held pend c) :
    D.Safe G Q p held pend c' := by
  cases p with
  | ret a => exact closed a held pend c c' rely safe
  | stmt locks write next => exact fun d inv later => safe d inv (rely.trans later)
  | auto locks write next => exact fun d inv later => safe d inv (rely.trans later)
  | commit next => exact fun d inv later => safe d inv (rely.trans later)
  | rollback next => exact fun d inv later => safe d inv (rely.trans later)

end Discipline

/-! ## Soundness -/

namespace Config

variable {Db Lock ι α : Type} [Guarding Db Lock] [Locking Lock] [DecidableEq ι]
  {D : Option ι → Discipline Db}
  {G : ι → Db → Db → Prop} {Q : ι → α → List Lock → (Db → Db) → Db → Prop}

/-- What holds between any two statements of anybody: every party's invariant, the safety of what
each client still has to do, and no two clients with conflicting locks. The party `none` only
watches. -/
structure Sound (D : Option ι → Discipline Db) (G : ι → Db → Db → Prop)
    (Q : ι → α → List Lock → (Db → Db) → Db → Prop) (σ : Config Db Lock ι α) : Prop where
  inv : ∀ j, (D j).inv σ.committed
  safe : ∀ i s, σ.sessions i = some s →
    (D (some i)).Safe (G i) (Q i) s.prog s.held s.pend σ.committed
  apart : ∀ i j s t, i ≠ j → σ.sessions i = some s → σ.sessions j = some t →
    ∀ l ∈ s.held, ∀ m ∈ t.held, conflicts l m = false

/-- What a client guarantees is what everybody else relies on, and its postcondition survives what
others may do. -/
structure Compatible (D : Option ι → Discipline Db) (G : ι → Db → Db → Prop)
    (Q : ι → α → List Lock → (Db → Db) → Db → Prop) : Prop where
  change : ∀ i j c c', j ≠ some i → (∀ k, (D k).inv c) → (D (some i)).inv c' → G i c c' →
    (D j).change c c'
  closed : ∀ i a held pend c c', (D (some i)).Rely held c c' → Q i a held pend c →
    Q i a held pend c'

omit [DecidableEq ι] in
theorem Sound.start {db : Db} {calls : ι → Prog Db Lock α} (inv : ∀ j, (D j).inv db)
    (safe : ∀ i, (D (some i)).Safe (G i) (Q i) (calls i) [] id db) :
    Sound D G Q (start db calls) where
  inv := inv
  safe i s running := by
    obtain rfl := Option.some.inj running
    exact safe i
  apart i j s t _ left _ l member := by
    obtain rfl := Option.some.inj left
    cases member

omit [DecidableEq ι] in
/-- What one statement does to the committed state, and what it may lock. -/
private theorem step_effect {σ : Config Db Lock ι α} (sound : Sound D G Q σ) {i : ι}
    {s s' : Session Db Lock α} {db : Db} (running : σ.sessions i = some s)
    (ready : σ.Ready i s.prog) (next : s.step σ.committed = some (db, s')) :
    ∃ locks, (D (some i)).Allowed (G i) locks σ.committed db ∧
      (D (some i)).Safe (G i) (Q i) s'.prog s'.held s'.pend db ∧
      (∀ j, j ≠ i → ∀ t, σ.sessions j = some t → ∀ l ∈ locks, ∀ m ∈ t.held,
        conflicts l m = false) ∧
      ∀ j, j ≠ i → ∀ t, σ.sessions j = some t → ∀ l ∈ s'.held, ∀ m ∈ t.held,
        conflicts l m = false := by
  have safe := sound.safe i s running
  have inv := sound.inv (some i)
  have apart : ∀ j, j ≠ i → ∀ t, σ.sessions j = some t → ∀ l ∈ s.held, ∀ m ∈ t.held,
      conflicts l m = false :=
    fun j other t present => sound.apart i j s t (Ne.symm other) running present
  obtain ⟨p, held, pend⟩ := s
  cases p with
  | ret a => cases next
  | stmt locks write k =>
    cases next
    refine ⟨[], .inl rfl, safe _ inv (.refl held _), by simp, ?_⟩
    intro j other t present l member m theirs
    rcases List.mem_append.mp member with fresh | old
    · exact ready j other t present l fresh m theirs
    · exact apart j other t present l old m theirs
  | auto locks write k =>
    cases next
    obtain ⟨allowed, rest⟩ := safe _ inv (.refl held _) (ready i _ running)
    exact ⟨locks, allowed, rest, fun j _ => ready j, apart⟩
  | commit k =>
    cases next
    obtain ⟨allowed, rest⟩ := safe _ inv (.refl held _)
    exact ⟨held, allowed, rest, apart, by simp⟩
  | rollback k =>
    cases next
    exact ⟨[], .inl rfl, safe _ inv (.refl held _), by simp, by simp⟩

/-- A statement of one client keeps the configuration sound. -/
theorem Sound.step (compatible : Compatible D G Q) {σ σ' : Config Db Lock ι α} {i : ι}
    (sound : Sound D G Q σ) (step : Step i σ σ') : Sound D G Q σ' := by
  obtain ⟨running, ready, next⟩ := step
  rename_i s s' db
  obtain ⟨locks, allowed, safe, free, apart⟩ := step_effect sound running ready next
  have change : ∀ j, j ≠ some i → db = σ.committed ∨ (D j).change σ.committed db := by
    intro j other
    rcases allowed with same | ⟨inv, own, _⟩
    · exact .inl same
    · exact .inr (compatible.change i j _ _ other sound.inv inv own)
  have inv : ∀ j, (D j).inv db := by
    intro j
    by_cases mine : j = some i
    · subst mine
      rcases allowed with rfl | ⟨inv, _⟩
      · exact sound.inv _
      · exact inv
    · rcases change j mine with rfl | change
      · exact sound.inv j
      · exact (D j).inv_change (sound.inv j) change
  have frame : ∀ l, (∀ m ∈ locks, conflicts m l = false) →
      observe σ.committed l = observe db l := by
    rcases allowed with rfl | ⟨_, _, frame⟩
    · exact fun _ _ => rfl
    · exact frame
  have rely : ∀ j, j ≠ i → ∀ t, σ.sessions j = some t →
      (D (some j)).Rely t.held σ.committed db :=
    fun j other t present => .of_change (sound.inv (some j))
      (change (some j) fun same => other (Option.some.inj same)) frame (free j other t present)
  refine ⟨inv, ?_, ?_⟩
  · intro j t present
    by_cases same : j = i
    · subst same
      obtain rfl : s' = t := by simpa using present
      exact safe
    · rw [set_sessions_ne σ db s' same] at present
      exact (sound.safe j t present).rely (compatible.closed j) (rely j same t present)
  · intro j k t u different left right l mine m theirs
    by_cases first : j = i
    · subst first
      rw [set_sessions_ne σ db s' different.symm] at right
      obtain rfl : s' = t := by simpa using left
      exact apart k different.symm u right l mine m theirs
    · rw [set_sessions_ne σ db s' first] at left
      by_cases second : k = i
      · subst second
        obtain rfl : s' = u := by simpa using right
        rw [Locking.symm]
        exact apart j first t left m theirs l mine
      · rw [set_sessions_ne σ db s' second] at right
        exact sound.apart j k t u different left right l mine m theirs

/-- A crash keeps the configuration sound. -/
theorem Sound.crash {σ σ' : Config Db Lock ι α} (sound : Sound D G Q σ) (crash : Crash σ σ') :
    Sound D G Q σ' := by
  obtain ⟨i⟩ := crash
  have present : ∀ {j s}, Function.update σ.sessions i none j = some s →
      σ.sessions j = some s := by
    intro j s running
    by_cases same : j = i
    · subst same; simp at running
    · simpa [same] using running
  exact ⟨sound.inv, fun j s running => sound.safe j s (present running),
    fun j k s t different left right =>
      sound.apart j k s t different (present left) (present right)⟩

/-- The environment only makes changes that everybody relies on and leaves every lock alone. -/
def Respects (D : Option ι → Discipline Db) (env : Db → Db → Prop) : Prop :=
  ∀ c c', (∀ j, (D j).inv c) → env c c' →
    (∀ j, (D j).change c c') ∧ ∀ l, observe c l = observe c' l

omit [DecidableEq ι] in
/-- A move of the environment keeps the configuration sound. -/
theorem Sound.outside (compatible : Compatible D G Q) {env : Db → Db → Prop}
    (respects : Respects D env) {σ σ' : Config Db Lock ι α} (sound : Sound D G Q σ)
    (outside : Outside env σ σ') : Sound D G Q σ' := by
  obtain ⟨move⟩ := outside
  obtain ⟨change, guards⟩ := respects _ _ sound.inv move
  refine ⟨fun j => (D j).inv_change (sound.inv j) (change j), fun i s running => ?_, sound.apart⟩
  exact (sound.safe i s running).rely (compatible.closed i)
    (ReflTransGen.single ⟨sound.inv (some i), change (some i), fun l _ => guards l⟩)

/-- Every interleaving of safe clients, with crashes and moves of the environment, is sound. -/
theorem Sound.reaches (compatible : Compatible D G Q) {env : Db → Db → Prop}
    (respects : Respects D env) {σ σ' : Config Db Lock ι α} (sound : Sound D G Q σ)
    (run : Reaches env σ σ') : Sound D G Q σ' := by
  induction run with
  | refl => exact sound
  | tail _ move ih =>
    rcases move with ⟨i, step⟩ | crash | outside
    · exact ih.step compatible step
    · exact ih.crash crash
    · exact ih.outside compatible respects outside

/-- Every interleaving of safe clients alone is sound. -/
theorem Sound.runs (compatible : Compatible D G Q) {σ σ' : Config Db Lock ι α}
    (sound : Sound D G Q σ) (run : Runs σ σ') : Sound D G Q σ' := by
  induction run with
  | refl => exact sound
  | tail _ step ih => exact ih.step compatible step.choose_spec

omit [DecidableEq ι] in
/-- A client that has ended satisfies its postcondition. -/
theorem Sound.returned {σ : Config Db Lock ι α} (sound : Sound D G Q σ) {i : ι} {a : α}
    (returned : σ.Returned i a) : ∃ held pend, Q i a held pend σ.committed := by
  obtain ⟨held, pend, running⟩ := returned
  exact ⟨held, pend, sound.safe i _ running⟩

/-- A statement changes the committed state only as its client promised. -/
theorem Sound.committed_step {σ σ' : Config Db Lock ι α} {i : ι} (sound : Sound D G Q σ)
    (step : Step i σ σ') : σ'.committed = σ.committed ∨ G i σ.committed σ'.committed := by
  obtain ⟨running, ready, next⟩ := step
  obtain ⟨_, allowed, _⟩ := step_effect sound running ready next
  rcases allowed with same | ⟨_, own, _⟩
  · exact .inl same
  · exact .inr own

end Config

end Finstack.Foundation
