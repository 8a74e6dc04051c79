import Finstack.Foundation.RelyGuarantee
import Finstack.Foundation.Table

/-! # What a program can end with

A program among others: between two of its statements others may commit, as long as they leave alone
what it has locked. `Ends` says where it can end. It asks nothing of the program's own commits, so
code can be followed for its result alone. A part that neither commits nor writes what matters is
stepped over as a whole.
-/

namespace Finstack.Foundation

variable {Db Lock Err α β γ : Type} [Guarding Db Lock]

namespace Prog

/-- Others have committed meanwhile, and what is locked is as it was. -/
def Meanwhile (others : Db → Db → Prop) (held : List Lock) (c c' : Db) : Prop :=
  others c c' ∧ ∀ l ∈ held, observe c l = observe c' l

/-- Wherever the program ends, `Q` holds of its result, its locks, its uncommitted writes and the
committed state. -/
def Ends (others : Db → Db → Prop) (Q : α → List Lock → (Db → Db) → Db → Prop) :
    Prog Db Lock α → List Lock → (Db → Db) → Db → Prop
  | .ret a, held, pend, c => Q a held pend c
  | .stmt locks write next, held, pend, c => ∀ c', Meanwhile others held c c' →
      Ends others Q (next (pend c')) (locks ++ held) (write (pend c') ∘ pend) c'
  | .auto _ write next, held, pend, c => ∀ c', Meanwhile others held c c' →
      Ends others Q (next c') held pend (write c')
  | .commit next, held, pend, c => ∀ c', Meanwhile others held c c' →
      Ends others Q next [] id (pend c')
  | .rollback next, held, _, c => ∀ c', Meanwhile others held c c' → Ends others Q next [] id c'

variable {others : Db → Db → Prop} {Q : α → List Lock → (Db → Db) → Db → Prop}
  {held : List Lock} {pend : Db → Db} {c : Db}

theorem Ends.mono {Q' : α → List Lock → (Db → Db) → Db → Prop}
    (imp : ∀ a held pend c, Q a held pend c → Q' a held pend c) {p : Prog Db Lock α}
    (ends : p.Ends others Q held pend c) : p.Ends others Q' held pend c := by
  induction p generalizing held pend c with
  | ret a => exact imp a held pend c ends
  | stmt locks write next ih => exact fun c' meanwhile => ih _ (ends c' meanwhile)
  | auto locks write next ih => exact fun c' meanwhile => ih _ (ends c' meanwhile)
  | commit next ih => exact fun c' meanwhile => ih (ends c' meanwhile)
  | rollback next ih => exact fun c' meanwhile => ih (ends c' meanwhile)

theorem Ends.and {Q' : α → List Lock → (Db → Db) → Db → Prop} {p : Prog Db Lock α}
    (left : p.Ends others Q held pend c) (right : p.Ends others Q' held pend c) :
    p.Ends others (fun a held pend c => Q a held pend c ∧ Q' a held pend c) held pend c := by
  induction p generalizing held pend c with
  | ret a => exact ⟨left, right⟩
  | stmt locks write next ih => exact fun c' meanwhile => ih _ (left c' meanwhile) (right c' meanwhile)
  | auto locks write next ih => exact fun c' meanwhile => ih _ (left c' meanwhile) (right c' meanwhile)
  | commit next ih => exact fun c' meanwhile => ih (left c' meanwhile) (right c' meanwhile)
  | rollback next ih => exact fun c' meanwhile => ih (left c' meanwhile) (right c' meanwhile)

theorem ends_of_forall (always : ∀ a held pend c, Q a held pend c) (p : Prog Db Lock α) :
    p.Ends others Q held pend c := by
  induction p generalizing held pend c with
  | ret a => exact always a held pend c
  | stmt locks write next ih => exact fun c' _ => ih _
  | auto locks write next ih => exact fun c' _ => ih _
  | commit next ih => exact fun c' _ => ih
  | rollback next ih => exact fun c' _ => ih

/-- Sequencing. -/
theorem ends_bind {Q : β → List Lock → (Db → Db) → Db → Prop} {p : Prog Db Lock α}
    {f : α → Prog Db Lock β} : (p.bind f).Ends others Q held pend c ↔
      p.Ends others (fun a held pend c => (f a).Ends others Q held pend c) held pend c := by
  induction p generalizing held pend c with
  | ret a => rfl
  | stmt locks write next ih => simp only [Prog.bind, Ends, ih]
  | auto locks write next ih => simp only [Prog.bind, Ends, ih]
  | commit next ih => simp only [Prog.bind, Ends, ih]
  | rollback next ih => simp only [Prog.bind, Ends, ih]

/-! ## Parts that write nothing that matters -/

/-- No commit, and no write of what `see` sees. -/
def Quiet (see : Db → γ) : Prog Db Lock α → Prop
  | .ret _ => True
  | .stmt _ write next => (∀ view db, see (write view db) = see db) ∧ ∀ view, (next view).Quiet see
  | .auto _ write next => (∀ db, see (write db) = see db) ∧ ∀ db, (next db).Quiet see
  | .commit _ | .rollback _ => False

omit [Guarding Db Lock] in
theorem Quiet.bind {see : Db → γ} {p : Prog Db Lock α} {f : α → Prog Db Lock β}
    (quiet : p.Quiet see) (rest : ∀ a, (f a).Quiet see) : (p.bind f).Quiet see := by
  induction p with
  | ret a => exact rest a
  | stmt locks write next ih => exact ⟨quiet.1, fun view => ih view (quiet.2 view)⟩
  | auto locks write next ih => exact ⟨quiet.1, fun db => ih db (quiet.2 db)⟩
  | commit next => exact quiet.elim
  | rollback next => exact quiet.elim

/-- None of the uncommitted writes is of what `see` sees. -/
def Clean (see : Db → γ) (pend : Db → Db) : Prop := ∀ db, see (pend db) = see db

/-- The lock is on something that `see` sees. -/
def Covers (see : Db → γ) (l : Lock) : Prop :=
  ∀ db db', see db = see db' → observe db l = observe db' l

/-- What a quiet part leaves as it is: the locks, the writes that matter, and what is locked. -/
structure Since (see : Db → γ) (held : List Lock) (pend : Db → Db) (c : Db) (held' : List Lock)
    (pend' : Db → Db) (c' : Db) : Prop where
  locks : ∀ l ∈ held, l ∈ held'
  writes : ∀ db, see (pend' db) = see (pend db)
  locked : ∀ l ∈ held, Covers see l → observe c l = observe c' l

theorem Since.refl (see : Db → γ) (held : List Lock) (pend : Db → Db) (c : Db) :
    Since see held pend c held pend c :=
  ⟨fun _ mine => mine, fun _ => rfl, fun _ _ _ => rfl⟩

theorem Since.trans {see : Db → γ} {held' held'' : List Lock} {pend' pend'' : Db → Db} {c' c'' : Db}
    (first : Since see held pend c held' pend' c') (second : Since see held' pend' c' held'' pend'' c'') :
    Since see held pend c held'' pend'' c'' where
  locks l mine := second.locks l (first.locks l mine)
  writes db := (second.writes db).trans (first.writes db)
  locked l mine covers :=
    (first.locked l mine covers).trans (second.locked l (first.locks l mine) covers)

theorem Since.clean {δ : Type} {see : Db → γ} {part : Db → δ} {held' : List Lock} {pend' : Db → Db}
    {c' : Db} (since : Since see held pend c held' pend' c')
    (reads : ∀ db db', see db = see db' → part db = part db') (clean : Clean part pend) :
    Clean part pend' :=
  fun db => (reads _ _ (since.writes db)).trans (clean db)

/-- A quiet part ends with anything, and everything that matters is as it was. -/
theorem ends_quiet {see : Db → γ} {p : Prog Db Lock α} (quiet : p.Quiet see) :
    p.Ends others (fun _ held' pend' c' => Since see held pend c held' pend' c') held pend c := by
  suffices walk : ∀ held₀ pend₀ c₀, Since see held₀ pend₀ c₀ held pend c →
      p.Ends others (fun _ held' pend' c' => Since see held₀ pend₀ c₀ held' pend' c') held pend c from
    walk held pend c (.refl see held pend c)
  induction p generalizing held pend c with
  | ret a => exact fun _ _ _ since => since
  | stmt locks write next ih =>
    intro held₀ pend₀ c₀ since c' meanwhile
    apply ih _ (quiet.2 _)
    exact since.trans ⟨fun l mine => List.mem_append_right locks mine, fun db => quiet.1 _ _,
      fun l mine _ => meanwhile.2 l mine⟩
  | auto locks write next ih =>
    intro held₀ pend₀ c₀ since c' meanwhile
    apply ih _ (quiet.2 _)
    exact since.trans ⟨fun _ mine => mine, fun _ => rfl, fun l mine covers =>
      (meanwhile.2 l mine).trans (covers _ _ (quiet.1 c').symm)⟩
  | commit next => exact quiet.elim
  | rollback next => exact quiet.elim

/-! ## Parts that keep something true -/

/-- No write makes `K` false. -/
def Preserves (K : Db → Prop) : Prog Db Lock α → Prop
  | .ret _ => True
  | .stmt _ write next =>
      (∀ view db, K db → K (write view db)) ∧ ∀ view, (next view).Preserves K
  | .auto _ write next => (∀ db, K db → K (write db)) ∧ ∀ db, (next db).Preserves K
  | .commit next | .rollback next => next.Preserves K

omit [Guarding Db Lock] in
theorem Preserves.bind {K : Db → Prop} {p : Prog Db Lock α} {f : α → Prog Db Lock β}
    (preserves : p.Preserves K) (rest : ∀ a, (f a).Preserves K) : (p.bind f).Preserves K := by
  induction p with
  | ret a => exact rest a
  | stmt locks write next ih => exact ⟨preserves.1, fun view => ih view (preserves.2 view)⟩
  | auto locks write next ih => exact ⟨preserves.1, fun db => ih db (preserves.2 db)⟩
  | commit next ih => exact ih preserves
  | rollback next ih => exact ih preserves

/-- What is committed, and would be committed. -/
def Keeping (K : Db → Prop) (pend : Db → Db) (c : Db) : Prop := K c ∧ ∀ db, K db → K (pend db)

/-- What others keep true and the part preserves is true at its end, whatever it committed. -/
theorem ends_preserves {K : Db → Prop} (keep : ∀ c c', others c c' → K c → K c')
    {p : Prog Db Lock α} (preserves : p.Preserves K) (known : Keeping K pend c) :
    p.Ends others (fun _ _ pend c => Keeping K pend c) held pend c := by
  induction p generalizing held pend c with
  | ret a => exact known
  | stmt locks write next ih =>
    intro c' meanwhile
    refine ih _ (preserves.2 _) ⟨keep _ _ meanwhile.1 known.1, fun db here => ?_⟩
    exact preserves.1 _ _ (known.2 db here)
  | auto locks write next ih =>
    intro c' meanwhile
    have now := keep _ _ meanwhile.1 known.1
    exact ih _ (preserves.2 _) ⟨preserves.1 _ now, known.2⟩
  | commit next ih =>
    intro c' meanwhile
    have now := keep _ _ meanwhile.1 known.1
    exact ih preserves ⟨known.2 _ now, fun _ here => here⟩
  | rollback next ih =>
    intro c' meanwhile
    exact ih preserves ⟨keep _ _ meanwhile.1 known.1, fun _ here => here⟩

end Prog

/-! ## Inserted rows -/

section Inserted

variable {R K : Type} [Keyed R K] [DecidableEq K] {table : Db → Table R} {l : Lock} {row : R}
  {others : Db → Db → Prop} {held held' : List Lock} {pend pend' : Db → Db} {c c' : Db}

/-- The lock is on the row of this key. -/
def GuardsRow (table : Db → Table R) (l : Lock) (k : K) : Prop :=
  ∀ db db', observe db l = observe db' l → (table db).find? k = (table db').find? k

/-- The open transaction has inserted a row with a key of its own, which it has locked. -/
structure Inserted (table : Db → Table R) (l : Lock) (row : R) (held : List Lock) (pend : Db → Db)
    (c : Db) : Prop where
  locked : l ∈ held
  absent : (table c).find? (key row) = none
  writes : ∀ db, table (pend db) = (table db).insert row

namespace Inserted

theorem later (guards : GuardsRow table l (key row)) (inserted : Inserted table l row held pend c)
    (meanwhile : Prog.Meanwhile others held c c') : Inserted table l row held pend c' where
  locked := inserted.locked
  absent := (guards c c' (meanwhile.2 l inserted.locked)) ▸ inserted.absent
  writes := inserted.writes

omit [Guarding Db Lock] in
theorem more {held' : List Lock} (inserted : Inserted table l row held pend c) :
    Inserted table l row (held' ++ held) pend c where
  locked := List.mem_append_right held' inserted.locked
  absent := inserted.absent
  writes := inserted.writes

omit [Guarding Db Lock] in
/-- The transaction sees the row, and will commit it. -/
theorem found (inserted : Inserted table l row held pend c) :
    (table (pend c)).find? (key row) = some row := by
  rw [inserted.writes]
  exact Table.find?_insert_self inserted.absent

/-- A quiet part leaves the row in place. -/
theorem since {γ : Type} {see : Db → γ} (guards : GuardsRow table l (key row))
    (covers : Prog.Covers see l) (reads : ∀ db db', see db = see db' → table db = table db')
    (inserted : Inserted table l row held pend c) (quiet : Prog.Since see held pend c held' pend' c') :
    Inserted table l row held' pend' c' where
  locked := quiet.locks l inserted.locked
  absent := (guards c c' (quiet.locked l inserted.locked covers)) ▸ inserted.absent
  writes db := (reads _ _ (quiet.writes db)).trans (inserted.writes db)

end Inserted

end Inserted

/-! ## Programs that may throw -/

namespace Txn

open Prog

variable {others : Db → Db → Prop} {R : α → List Lock → (Db → Db) → Db → Prop}
  {held : List Lock} {pend : Db → Db} {c : Db}

/-- Wherever the program ends with a value, `R` holds. -/
def Returns (others : Db → Db → Prop) (R : α → List Lock → (Db → Db) → Db → Prop)
    (x : Txn Db Lock Err α) (held : List Lock) (pend : Db → Db) (c : Db) : Prop :=
  Prog.Ends others (fun result held pend c => ∀ a, result = .ok a → R a held pend c) x held pend c

theorem returns_pure {a : α} : Returns others R (pure a : Txn Db Lock Err α) held pend c ↔
    R a held pend c :=
  ⟨fun returns => returns a rfl, fun holds _ same => Except.ok.inj same ▸ holds⟩

theorem returns_throw {e : Err} : Returns others R (Txn.throw e : Txn Db Lock Err α) held pend c :=
  fun _ same => nomatch same

theorem returns_ret {result : Except Err α} :
    Returns others R (Prog.ret result : Txn Db Lock Err α) held pend c ↔
      ∀ a, result = .ok a → R a held pend c := Iff.rfl

theorem Returns.mono {R' : α → List Lock → (Db → Db) → Db → Prop} {x : Txn Db Lock Err α}
    (imp : ∀ a held pend c, R a held pend c → R' a held pend c)
    (returns : Returns others R x held pend c) : Returns others R' x held pend c :=
  Ends.mono (fun _ held pend c post a same => imp a held pend c (post a same)) returns

theorem returns_bind {S : β → List Lock → (Db → Db) → Db → Prop} {x : Txn Db Lock Err α}
    {f : α → Txn Db Lock Err β} (returns : Returns others
      (fun a held pend c => Returns others S (f a) held pend c) x held pend c) :
    Returns others S (x >>= f) held pend c := by
  refine ends_bind.mpr (Ends.mono ?_ returns)
  rintro (e | a) held pend c post
  · exact returns_throw
  · exact post a rfl

theorem returns_of_bind {S : β → List Lock → (Db → Db) → Db → Prop} {x : Txn Db Lock Err α}
    {f : α → Txn Db Lock Err β} (returns : Returns others S (x >>= f) held pend c) :
    Returns others (fun a held pend c => Returns others S (f a) held pend c) x held pend c := by
  refine Ends.mono ?_ (ends_bind.mp returns)
  rintro result held pend c post a rfl
  exact post

theorem Returns.and {R' : α → List Lock → (Db → Db) → Db → Prop} {x : Txn Db Lock Err α}
    (left : Returns others R x held pend c) (right : Returns others R' x held pend c) :
    Returns others (fun a held pend c => R a held pend c ∧ R' a held pend c) x held pend c :=
  Ends.mono (fun _ _ _ _ both a same => ⟨both.1 a same, both.2 a same⟩) (Ends.and left right)

theorem returns_of_forall (always : ∀ a held pend c, R a held pend c) (x : Txn Db Lock Err α) :
    Returns others R x held pend c :=
  ends_of_forall (fun _ held pend c a _ => always a held pend c) x

theorem returns_quiet {see : Db → γ} {x : Txn Db Lock Err α} (quiet : Prog.Quiet see x) :
    Returns others (fun _ held' pend' c' => Since see held pend c held' pend' c') x held pend c :=
  Ends.mono (fun _ _ _ _ since _ _ => since) (ends_quiet quiet)

theorem returns_query {run : Db → α} : Returns others R (Txn.query run : Txn Db Lock Err α) held pend c ↔
    ∀ c', Meanwhile others held c c' → R (run (pend c')) held pend c' := by
  simp [Returns, Txn.query, Ends]

theorem returns_select {locks : List Lock} {run : Db → α} :
    Returns others R (Txn.select locks run : Txn Db Lock Err α) held pend c ↔
      ∀ c', Meanwhile others held c c' → R (run (pend c')) (locks ++ held) pend c' := by
  simp [Returns, Txn.select, Ends]

theorem returns_statement {locks : List Lock} {run : Db → Except Err (α × (Db → Db))} :
    Returns others R (Txn.statement locks run) held pend c ↔
      ∀ c', Meanwhile others held c c' → ∀ a write, run (pend c') = .ok (a, write) →
        R a (locks ++ held) (write ∘ pend) c' := by
  simp only [Returns, Txn.statement, Ends]
  refine forall_congr' fun c' => forall_congr' fun _ => ?_
  cases run (pend c') with
  | error e => simp [Except.map]
  | ok result =>
    obtain ⟨a, write⟩ := result
    simp [Except.map]

theorem returns_queryCommitted {run : Db → α} :
    Returns others R (Txn.queryCommitted run : Txn Db Lock Err α) held pend c ↔
      ∀ c', Meanwhile others held c c' → R (run c') held pend c' := by
  simp [Returns, Txn.queryCommitted, Ends]

/-- A transaction that returns has committed. -/
theorem returns_transaction {atCommit : Txn Db Lock Err Unit} {body : Txn Db Lock Err α}
    (returns : Returns others (fun a held pend c => Returns others (fun _ held pend c =>
        ∀ c', Meanwhile others held c c' → R a [] id (pend c')) atCommit held pend c)
      body held pend c) :
    Returns others R (Txn.transaction atCommit body) held pend c := by
  have inner : Returns others (fun a held pend c => ∀ c', Meanwhile others held c c' →
      R a [] id (pend c')) (body >>= fun a => atCommit >>= fun _ => pure a) held pend c :=
    returns_bind (returns.mono fun a held pend c checked =>
      returns_bind (checked.mono fun _ _ _ _ commits => returns_pure.mpr commits))
  refine ends_bind.mpr (Ends.mono ?_ inner)
  rintro (e | a) held pend c post c' meanwhile
  · exact returns_throw
  · exact returns_pure.mpr (post a rfl c' meanwhile)

/-- What a part preserves is true when it returns. -/
theorem returns_preserves {K : Db → Prop} (keep : ∀ c c', others c c' → K c → K c')
    {x : Txn Db Lock Err α} (preserves : Prog.Preserves K x) (known : Keeping K pend c) :
    Returns others (fun _ _ pend c => Keeping K pend c) x held pend c :=
  Ends.mono (fun _ _ _ _ here _ _ => here) (ends_preserves keep preserves known)

/-- `catch`, with nothing known of where the code threw. -/
theorem returns_tryCatch {x : Txn Db Lock Err α} {handler : Err → Txn Db Lock Err α}
    (returns : Returns others R x held pend c)
    (handles : ∀ e held pend c, Returns others R (handler e) held pend c) :
    Returns others R (Txn.tryCatch x handler) held pend c := by
  refine ends_bind.mpr (Ends.mono ?_ returns)
  rintro (e | a) held pend c post
  · exact handles e held pend c
  · exact returns_pure.mpr (post a rfl)

/-! ### Quiet code -/

section

omit [Guarding Db Lock]

variable {see : Db → γ}

theorem quiet_pure {a : α} : Prog.Quiet see (pure a : Txn Db Lock Err α) := trivial

theorem quiet_throw {e : Err} : Prog.Quiet see (Txn.throw e : Txn Db Lock Err α) := trivial

theorem quiet_ret {result : Except Err α} :
    Prog.Quiet see (Prog.ret result : Txn Db Lock Err α) := trivial

theorem quiet_bind {x : Txn Db Lock Err α} {f : α → Txn Db Lock Err β} (quiet : Prog.Quiet see x)
    (rest : ∀ a, Prog.Quiet see (f a)) : Prog.Quiet see (x >>= f : Txn Db Lock Err β) := by
  refine Prog.Quiet.bind quiet ?_
  rintro (e | a)
  · exact quiet_throw
  · exact rest a

theorem quiet_query {run : Db → α} : Prog.Quiet see (Txn.query run : Txn Db Lock Err α) :=
  ⟨fun _ _ => rfl, fun _ => trivial⟩

theorem quiet_select {locks : List Lock} {run : Db → α} :
    Prog.Quiet see (Txn.select locks run : Txn Db Lock Err α) :=
  ⟨fun _ _ => rfl, fun _ => trivial⟩

theorem quiet_queryCommitted {run : Db → α} :
    Prog.Quiet see (Txn.queryCommitted run : Txn Db Lock Err α) :=
  ⟨fun _ => rfl, fun _ => trivial⟩

theorem quiet_statement {locks : List Lock} {run : Db → Except Err (α × (Db → Db))}
    (same : ∀ view a write, run view = .ok (a, write) → ∀ db, see (write db) = see db) :
    Prog.Quiet see (Txn.statement locks run) := by
  refine ⟨fun view db => ?_, fun _ => trivial⟩
  dsimp only
  cases result : run view with
  | error e => rfl
  | ok done => exact same view done.1 done.2 result db

theorem quiet_separately {locks : List Lock} {run : Db → Except Err (α × (Db → Db))}
    (same : ∀ view a write, run view = .ok (a, write) → ∀ db, see (write db) = see db) :
    Prog.Quiet see (Txn.separately locks run) := by
  refine ⟨fun db => ?_, fun _ => trivial⟩
  dsimp only
  cases result : run db with
  | error e => rfl
  | ok done => exact same db done.1 done.2 result db

end

/-! ### Code that keeps something true -/

section

omit [Guarding Db Lock]

variable {K : Db → Prop}

theorem preserves_pure {a : α} : Prog.Preserves K (pure a : Txn Db Lock Err α) := trivial

theorem preserves_throw {e : Err} : Prog.Preserves K (Txn.throw e : Txn Db Lock Err α) := trivial

theorem preserves_ret {result : Except Err α} :
    Prog.Preserves K (Prog.ret result : Txn Db Lock Err α) := trivial

theorem preserves_bind {x : Txn Db Lock Err α} {f : α → Txn Db Lock Err β}
    (preserves : Prog.Preserves K x) (rest : ∀ a, Prog.Preserves K (f a)) :
    Prog.Preserves K (x >>= f : Txn Db Lock Err β) := by
  refine Prog.Preserves.bind preserves ?_
  rintro (e | a)
  · exact preserves_throw
  · exact rest a

theorem preserves_tryCatch {x : Txn Db Lock Err α} {handler : Err → Txn Db Lock Err α}
    (preserves : Prog.Preserves K x) (handles : ∀ e, Prog.Preserves K (handler e)) :
    Prog.Preserves K (Txn.tryCatch x handler) := by
  refine Prog.Preserves.bind preserves ?_
  rintro (e | a)
  · exact handles e
  · exact preserves_pure

theorem preserves_query {run : Db → α} : Prog.Preserves K (Txn.query run : Txn Db Lock Err α) :=
  ⟨fun _ _ here => here, fun _ => trivial⟩

theorem preserves_select {locks : List Lock} {run : Db → α} :
    Prog.Preserves K (Txn.select locks run : Txn Db Lock Err α) :=
  ⟨fun _ _ here => here, fun _ => trivial⟩

theorem preserves_statement {locks : List Lock} {run : Db → Except Err (α × (Db → Db))}
    (keeps : ∀ view a write, run view = .ok (a, write) → ∀ db, K db → K (write db)) :
    Prog.Preserves K (Txn.statement locks run) := by
  refine ⟨fun view db here => ?_, fun _ => trivial⟩
  dsimp only
  cases result : run view with
  | error e => exact here
  | ok done => exact keeps view done.1 done.2 result db here

theorem preserves_separately {locks : List Lock} {run : Db → Except Err (α × (Db → Db))}
    (keeps : ∀ view a write, run view = .ok (a, write) → ∀ db, K db → K (write db)) :
    Prog.Preserves K (Txn.separately locks run) := by
  refine ⟨fun db here => ?_, fun _ => trivial⟩
  dsimp only
  cases result : run db with
  | error e => exact here
  | ok done => exact keeps db done.1 done.2 result db here

theorem preserves_transaction {atCommit : Txn Db Lock Err Unit} {body : Txn Db Lock Err α}
    (checks : Prog.Preserves K atCommit) (preserves : Prog.Preserves K body) :
    Prog.Preserves K (Txn.transaction atCommit body) := by
  have inner : Prog.Preserves K (body >>= fun a => atCommit >>= fun _ => pure a : Txn Db Lock Err α) :=
    preserves_bind preserves fun _ => preserves_bind checks fun _ => preserves_pure
  refine Prog.Preserves.bind inner ?_
  rintro (e | a) <;> trivial

end

end Txn

end Finstack.Foundation
