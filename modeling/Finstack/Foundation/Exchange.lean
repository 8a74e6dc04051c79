import Mathlib.Init

/-! # Exchanges with a party outside the system

A program that sends requests, reads an answer to each and ends with a result or an exception. What
the other side answers is its own affair: `Runs` relates a program to every exchange it can have, so
that what holds of all its runs holds whatever the other side does, lost answers included.
-/

namespace Finstack.Foundation

variable {Q A E α β : Type}

/-- A program that talks to the outside. -/
inductive Exchange (Q A E α : Type) where
  | done (result : Except E α)
  | send (request : Q) (next : A → Exchange Q A E α)

namespace Exchange

/-- An exception ends the program. -/
def bind : Exchange Q A E α → (α → Exchange Q A E β) → Exchange Q A E β
  | .done (.ok a), f => f a
  | .done (.error e), _ => .done (.error e)
  | .send request next, f => .send request fun answer => (next answer).bind f

instance : Monad (Exchange Q A E) where
  pure a := .done (.ok a)
  bind := bind

/-- The requests sent so far, each with its answer. -/
abbrev Transcript (Q A : Type) := List (Q × A)

/-- The exchanges a program can have. -/
inductive Runs : Exchange Q A E α → Transcript Q A → Except E α → Prop
  | done (result : Except E α) : Runs (.done result) [] result
  | send {request : Q} {next : A → Exchange Q A E α} {sent : Transcript Q A} {result : Except E α}
      (answer : A) (rest : Runs (next answer) sent result) :
      Runs (.send request next) ((request, answer) :: sent) result

variable {c : Exchange Q A E α} {f : α → Exchange Q A E β} {sent : Transcript Q A}

theorem runs_done {result ended : Except E α} :
    Runs (.done result) sent ended ↔ sent = [] ∧ ended = result := by
  constructor
  · intro run
    cases run
    exact ⟨rfl, rfl⟩
  · rintro ⟨rfl, rfl⟩
    exact .done ended

theorem runs_send {request : Q} {next : A → Exchange Q A E α} {ended : Except E α} :
    Runs (.send request next) sent ended ↔
      ∃ answer rest, sent = (request, answer) :: rest ∧ Runs (next answer) rest ended := by
  constructor
  · intro run
    cases run with
    | send answer rest => exact ⟨answer, _, rfl, rest⟩
  · rintro ⟨answer, rest, rfl, run⟩
    exact .send answer run

/-- A sequence runs its first part; where that ends well, its second part. -/
theorem Runs.of_bind {ended : Except E β} (run : Runs (c >>= f) sent ended) :
    (∃ e, ended = .error e ∧ Runs c sent (.error e)) ∨
      ∃ a before after, sent = before ++ after ∧ Runs c before (.ok a) ∧ Runs (f a) after ended := by
  change Runs (c.bind f) sent ended at run
  induction c generalizing sent with
  | done result =>
    cases result with
    | error e =>
      obtain ⟨rfl, rfl⟩ := runs_done.mp run
      exact .inl ⟨e, rfl, .done _⟩
    | ok a => exact .inr ⟨a, [], sent, rfl, .done _, run⟩
  | send request next ih =>
    obtain ⟨answer, rest, rfl, ran⟩ := runs_send.mp run
    obtain ⟨e, rfl, first⟩ | ⟨a, before, after, rfl, first, second⟩ := ih answer ran
    · exact .inl ⟨e, rfl, .send answer first⟩
    · exact .inr ⟨a, (request, answer) :: before, after, rfl, .send answer first, second⟩

/-! ## The one request that matters -/

variable {matters : Q → Prop} {R : A → Except E α → Prop} {S : A → Except E β → Prop}

/-- No request of this kind is sent, in any exchange. -/
def Quiet (matters : Q → Prop) (c : Exchange Q A E α) : Prop :=
  ∀ sent ended, Runs c sent ended → ∀ x ∈ sent, ¬ matters x.1

/-- At most one request of this kind is sent, and the result is related to its answer. -/
def Decisive (matters : Q → Prop) (R : A → Except E α → Prop) (c : Exchange Q A E α) : Prop :=
  ∀ sent ended, Runs c sent ended →
    (∀ x ∈ sent, ¬ matters x.1) ∨
      ∃ before request answer, sent = before ++ [(request, answer)] ∧
        (∀ x ∈ before, ¬ matters x.1) ∧ matters request ∧ R answer ended

theorem Quiet.done (result : Except E α) : Quiet (A := A) matters (.done result) := by
  intro sent ended run x mem
  obtain ⟨rfl, -⟩ := runs_done.mp run
  cases mem

theorem Quiet.send {request : Q} {next : A → Exchange Q A E α} (other : ¬ matters request)
    (rest : ∀ answer, Quiet matters (next answer)) : Quiet matters (.send request next) := by
  intro sent ended run x mem
  obtain ⟨answer, later, rfl, ran⟩ := runs_send.mp run
  cases mem with
  | head => exact other
  | tail _ mem => exact rest answer later ended ran x mem

theorem Quiet.bind (first : Quiet matters c) (second : ∀ a, Quiet matters (f a)) :
    Quiet matters (c >>= f) := by
  intro sent ended run x mem
  obtain ⟨e, -, ran⟩ | ⟨a, before, after, rfl, ran, ran'⟩ := run.of_bind
  · exact first sent _ ran x mem
  · obtain mem | mem := List.mem_append.mp mem
    · exact first before _ ran x mem
    · exact second a after ended ran' x mem

theorem Quiet.decisive (quiet : Quiet matters c) : Decisive matters R c :=
  fun sent ended run => .inl (quiet sent ended run)

/-- The request that matters comes last, and its answer settles the result. -/
theorem Decisive.send {request : Q} {result : A → Except E α} (here : matters request)
    (settles : ∀ answer, R answer (result answer)) :
    Decisive matters R (.send request fun answer => .done (result answer)) := by
  intro sent ended run
  obtain ⟨answer, rest, rfl, ran⟩ := runs_send.mp run
  obtain ⟨rfl, rfl⟩ := runs_done.mp ran
  refine .inr ⟨[], request, answer, rfl, ?_, here, settles answer⟩
  exact fun x mem => by cases mem

/-- Whatever comes before the request that matters. -/
theorem Quiet.bind_decisive (first : Quiet matters c) (second : ∀ a, Decisive matters S (f a)) :
    Decisive matters S (c >>= f) := by
  intro sent ended run
  obtain ⟨e, -, ran⟩ | ⟨a, before, after, rfl, ran, ran'⟩ := run.of_bind
  · exact .inl (first sent _ ran)
  · obtain none | ⟨between, request, answer, rfl, none, here, settles⟩ := second a after ended ran'
    · refine .inl fun x mem => ?_
      obtain mem | mem := List.mem_append.mp mem
      · exact first before _ ran x mem
      · exact none x mem
    · refine .inr ⟨before ++ between, request, answer, (List.append_assoc ..).symm, ?_, here, settles⟩
      intro x mem
      obtain mem | mem := List.mem_append.mp mem
      · exact first before _ ran x mem
      · exact none x mem

/-- What is computed from the result of the request that matters. -/
theorem Decisive.bind_done {g : α → Except E β} (first : Decisive matters R c)
    (settles : ∀ answer ended, R answer ended → S answer (ended.bind g)) :
    Decisive matters S (c >>= fun a => .done (g a)) := by
  intro sent ended run
  obtain ⟨e, rfl, ran⟩ | ⟨a, before, after, rfl, ran, ran'⟩ := run.of_bind
  · obtain none | ⟨before, request, answer, rfl, none, here, settled⟩ := first sent _ ran
    · exact .inl none
    · exact .inr ⟨before, request, answer, rfl, none, here, settles answer _ settled⟩
  · obtain ⟨rfl, rfl⟩ := runs_done.mp ran'
    rw [List.append_nil]
    obtain none | ⟨before, request, answer, rfl, none, here, settled⟩ := first before _ ran
    · exact .inl none
    · exact .inr ⟨before, request, answer, rfl, none, here, settles answer _ settled⟩

end Exchange

end Finstack.Foundation
