import Mathlib.Data.List.Forall2

/-! # Unique readability

Texts that others may follow. A text is legible if what follows it begins with a stop and no other
text can be read in its place; enumerations between a separator and a closing sign inherit this from
their items.
-/

namespace Finstack.Foundation

variable {κ α : Type} {stop : κ → Prop}

/-- What follows begins with a stop, if it begins at all. -/
def Stops (stop : κ → Prop) (rest : List κ) : Prop := ∀ c ∈ rest.head?, stop c

theorem Stops.nil : Stops stop [] := fun _ head => nomatch head

theorem Stops.cons {c : κ} (here : stop c) (rest : List κ) : Stops stop (c :: rest) := by
  intro d head
  cases head
  exact here

/-- In front of stops the text of `a` is that of nothing else, up to a relation. -/
def Legible (stop : κ → Prop) (text : α → List κ) (valid : α → Prop) (R : α → α → Prop) (a : α) : Prop :=
  ∀ b rest rest', valid b → Stops stop rest → Stops stop rest' → text a ++ rest = text b ++ rest' →
    R a b ∧ rest = rest'

/-- A text without stops ends where the first stop is. -/
theorem append_inj_of_stops {u v rest rest' : List κ} (plain : ∀ c ∈ u, ¬ stop c)
    (plain' : ∀ c ∈ v, ¬ stop c) (stops : Stops stop rest) (stops' : Stops stop rest')
    (same : u ++ rest = v ++ rest') : u = v ∧ rest = rest' := by
  induction u generalizing v with
  | nil =>
    cases v with
    | nil => exact ⟨rfl, same⟩
    | cons c v =>
      have here : stop c := stops c (by rw [show rest = c :: (v ++ rest') from same]; rfl)
      exact absurd here (plain' c List.mem_cons_self)
  | cons c u ih =>
    obtain ⟨first, others⟩ := List.forall_mem_cons.mp plain
    cases v with
    | nil =>
      have here : stop c := stops' c (by rw [← show c :: (u ++ rest) = rest' from same]; rfl)
      exact absurd here first
    | cons d v =>
      obtain ⟨rfl, tail⟩ := List.cons.inj same
      obtain ⟨rfl, after⟩ := ih others (List.forall_mem_cons.mp plain').2 tail
      exact ⟨rfl, after⟩

/-- A text is cut at its last separator in one way. -/
theorem append_cons_inj_of_not_mem {u v front front' : List κ} {sep : κ} (plain : sep ∉ u) (plain' : sep ∉ v)
    (same : front ++ sep :: u = front' ++ sep :: v) : front = front' ∧ u = v := by
  have reversed := congrArg List.reverse same
  simp only [List.reverse_append, List.reverse_cons, List.append_assoc, List.cons_append,
    List.nil_append] at reversed
  have stops (rest : List κ) : Stops (fun c => c = sep) (sep :: rest) := by
    intro d head
    cases head
    rfl
  have apart : ∀ w : List κ, sep ∉ w → ∀ c ∈ w.reverse, ¬ c = sep := by
    rintro w absent c member rfl
    exact absent (List.mem_reverse.mp member)
  obtain ⟨tails, fronts⟩ :=
    append_inj_of_stops (apart u plain) (apart v plain') (stops _) (stops _) reversed
  exact ⟨List.reverse_injective (List.cons.inj fronts).2, List.reverse_injective tails⟩

/-! ## Enumerations -/

variable {text : α → List κ} {valid : α → Prop} {R : α → α → Prop} {sep close : κ} {items others : List α}
  {rest rest' : List κ}

theorem intercalate_cons (first : List κ) (texts : List (List κ)) :
    [sep].intercalate (first :: texts) = first ++ texts.flatMap (sep :: ·) := by
  induction texts generalizing first with
  | nil => simp
  | cons next texts ih =>
    rw [List.intercalate_cons_cons, ih, List.flatMap_cons]
    simp

theorem forall_mem_intercalate {P : κ → Prop} {texts : List (List κ)} (between : P sep)
    (each : ∀ t ∈ texts, ∀ c ∈ t, P c) : ∀ c ∈ [sep].intercalate texts, P c := by
  cases texts with
  | nil => exact fun c member => absurd member (by simp)
  | cons first texts =>
    obtain ⟨here, others⟩ := List.forall_mem_cons.mp each
    rw [intercalate_cons]
    refine List.forall_mem_append.mpr ⟨here, fun c member => ?_⟩
    obtain ⟨t, there, inside⟩ := List.mem_flatMap.mp member
    rcases List.mem_cons.mp inside with rfl | inside
    · exact between
    · exact others t there c inside

variable (legible : ∀ a ∈ items, Legible stop text valid R a) (here : stop sep) (last : stop close)
  (apart : sep ≠ close)

include legible here last apart

/-- Items after the first. -/
theorem legible_tail (all : ∀ b ∈ others, valid b)
    (same : (items.map text).flatMap (sep :: ·) ++ close :: rest =
      (others.map text).flatMap (sep :: ·) ++ close :: rest') :
    List.Forall₂ R items others ∧ rest = rest' := by
  induction items generalizing others with
  | nil =>
    cases others with
    | nil => exact ⟨.nil, (List.cons.inj same).2⟩
    | cons b others => exact absurd (List.cons.inj same).1.symm apart
  | cons a items ih =>
    cases others with
    | nil => exact absurd (List.cons.inj same).1 apart
    | cons b others =>
      obtain ⟨first, legible⟩ := List.forall_mem_cons.mp legible
      obtain ⟨valid_b, all⟩ := List.forall_mem_cons.mp all
      have stops : ∀ (items : List α) (rest : List κ), Stops stop ((items.map text).flatMap (sep :: ·) ++ close :: rest) := by
        intro items rest
        cases items with
        | nil => exact .cons last rest
        | cons a items => exact .cons here _
      simp only [List.map_cons, List.flatMap_cons, List.cons_append, List.append_assoc] at same
      obtain ⟨related, tail⟩ := first b _ _ valid_b (stops items rest) (stops others rest')
        (List.cons.inj same).2
      obtain ⟨more, after⟩ := ih legible all tail
      exact ⟨.cons related more, after⟩

/-- Items between separators, where none begins with the closing sign. -/
theorem legible_intercalate (valid_items : ∀ a ∈ items, valid a) (all : ∀ b ∈ others, valid b)
    (starts : ∀ b, valid b → ∃ c t, text b = c :: t ∧ c ≠ close)
    (same : [sep].intercalate (items.map text) ++ close :: rest =
      [sep].intercalate (others.map text) ++ close :: rest') :
    List.Forall₂ R items others ∧ rest = rest' := by
  cases items with
  | nil =>
    cases others with
    | nil => exact ⟨.nil, (List.cons.inj same).2⟩
    | cons b others =>
      obtain ⟨c, t, begins, other⟩ := starts b (all b List.mem_cons_self)
      rw [List.map_cons, intercalate_cons, begins] at same
      exact absurd (List.cons.inj same).1.symm other
  | cons a items =>
    cases others with
    | nil =>
      obtain ⟨c, t, begins, other⟩ := starts a (valid_items a List.mem_cons_self)
      rw [List.map_cons, intercalate_cons, begins] at same
      exact absurd (List.cons.inj same).1 other
    | cons b others =>
      rw [List.map_cons, List.map_cons, intercalate_cons, intercalate_cons] at same
      refine legible_tail legible here last apart all ?_
      rw [List.map_cons, List.map_cons, List.flatMap_cons, List.flatMap_cons]
      exact congrArg (sep :: ·) same

end Finstack.Foundation
