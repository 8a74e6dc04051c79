import Finstack.Soundness.Auth.Calls

/-! # Chains of tokens

In every run a family is a chain: at most one of its tokens is unrevoked, each was rotated at most
once, and its successor belongs to its family and its user. A token that is revoked or expired is
never exchanged for another one by a call that begins later.
-/

namespace Finstack.RefreshTokens

open Foundation

variable {κ φ υ ι : Type} [DecidableEq κ] [DecidableEq φ] [DecidableEq υ] [DecidableEq ι]
  {s s' : Sessions κ φ υ ι} {i j : ι} {token next k l : κ} {a b row : RefreshToken κ φ υ}
  {call : Call κ φ υ} {ttl : Nat} {action : Sessions.Action κ φ υ ι}

/-! ## The chain of a family -/

structure Chains (s : Sessions κ φ υ ι) : Prop where
  /-- A family has at most one unrevoked token, and belongs to one user. -/
  unrevoked : ∀ k l a b, s.tokens.rows k = some a → s.tokens.rows l = some b →
    a.familyId = b.familyId → a.revokedAt = none → b.revokedAt = none → k = l
  user : ∀ k l a b, s.tokens.rows k = some a → s.tokens.rows l = some b →
    a.familyId = b.familyId → a.userId = b.userId
  /-- A token is rotated at most once, and is the successor of at most one. -/
  once : (s.rotations.map Rotation.token).Nodup
  origin : (s.rotations.map Rotation.next).Nodup
  /-- What the rows say of rotations. -/
  replaced : ∀ k a n, s.tokens.rows k = some a → a.replacedById = some n →
    ∃ r ∈ s.rotations, r.token = k ∧ r.next = n
  token : ∀ r ∈ s.rotations, ∀ a, s.tokens.rows r.token = some a → a.revokedAt.isSome ∧
    a.replacedById = some r.next ∧ a.familyId = r.familyId ∧ a.userId = r.userId
  next : ∀ r ∈ s.rotations, ∀ a, s.tokens.rows r.next = some a →
    a.familyId = r.familyId ∧ a.userId = r.userId

omit [DecidableEq κ] [DecidableEq φ] [DecidableEq υ] in
/-- An unrevoked row was there before, and a revoked one stays as it is. -/
theorem Evolves.unrevoked {old : Option (RefreshToken κ φ υ)} (evolves : Evolves old (some b))
    (unrevoked : b.revokedAt = none) : old = some b := by
  obtain ⟨a, there, -, -, -, rfl | ⟨-, revoked, -⟩⟩ := evolves b rfl
  · exact there
  · rw [unrevoked] at revoked
    cases revoked

omit [DecidableEq κ] [DecidableEq φ] [DecidableEq υ] in
theorem Evolves.revoked (evolves : Evolves (some a) (some b)) (revoked : a.revokedAt.isSome) :
    b = a := by
  obtain ⟨c, there, -, -, -, rfl | ⟨none, -, -⟩⟩ := evolves b rfl
  · exact (Option.some.inj there).symm
  · cases there
    rw [none] at revoked
    cases revoked

omit [DecidableEq υ] in
theorem Chains.change (chains : Chains s) (change : Change s s') : Chains s' := by
  cases change with
  | evolved rows rotations =>
    have old : ∀ l b, s'.tokens.rows l = some b → ∃ a, s.tokens.rows l = some a ∧
        b.familyId = a.familyId ∧ b.userId = a.userId ∧ b.replacedById = a.replacedById := by
      intro l b there
      obtain ⟨a, before, family, user, -, rfl | ⟨-, -, replaced⟩⟩ := rows l b there
      · exact ⟨b, before, rfl, rfl, rfl⟩
      · exact ⟨a, before, family, user, replaced⟩
    constructor
    · intro k l a b first second family alive alive'
      have evolves := rows k
      have evolves' := rows l
      rw [first] at evolves
      rw [second] at evolves'
      exact chains.unrevoked k l a b (evolves.unrevoked alive) (evolves'.unrevoked alive') family
        alive alive'
    · intro k l a b first second family
      obtain ⟨a', before, family₁, user₁, -⟩ := old k a first
      obtain ⟨b', before', family₂, user₂, -⟩ := old l b second
      rw [user₁, user₂]
      exact chains.user k l a' b' before before' (family₁.symm.trans (family.trans family₂))
    · rw [rotations]
      exact chains.once
    · rw [rotations]
      exact chains.origin
    · intro k a n there replaced
      obtain ⟨a', before, -, -, same⟩ := old k a there
      rw [rotations]
      exact chains.replaced k a' n before (same ▸ replaced)
    · intro r member b there
      rw [rotations] at member
      obtain ⟨a, before, -⟩ := old _ b there
      have evolves := rows r.token
      have known := chains.token r member a before
      rw [before, there] at evolves
      rw [evolves.revoked known.1]
      exact known
    · intro r member b there
      rw [rotations] at member
      obtain ⟨a, before, family, user, -⟩ := old _ b there
      rw [family, user]
      exact chains.next r member a before
  | @rotated i token next _ current replaced row _ locked there unrevoked vacant new replaces issues
      rows rotations =>
    have apart : token ≠ next := by
      rintro rfl
      rw [vacant] at there
      cases there
    have unrotated : ∀ r ∈ s.rotations, r.token ≠ token := by
      rintro r member rfl
      have revoked := (chains.token r member current there).1
      rw [unrevoked] at revoked
      cases revoked
    -- the rows afterwards: the new one, the one that it replaces, and the others
    have cases_ : ∀ l b, s'.tokens.rows l = some b → l = next ∧ b = row ∨
        l = token ∧ b = replaced ∨ l ≠ next ∧ l ≠ token ∧ s.tokens.rows l = some b := by
      intro l b after
      rw [rows] at after
      rcases eq_or_ne l next with rfl | first
      · exact .inl ⟨rfl, by simpa using after.symm⟩
      · rcases eq_or_ne l token with rfl | second
        · exact .inr (.inl ⟨rfl, by simpa [first] using after.symm⟩)
        · exact .inr (.inr ⟨first, second, by simpa [first, second] using after⟩)
    -- each of them belongs to a family and a user that an old row has
    have old : ∀ l b, s'.tokens.rows l = some b → ∃ k a, s.tokens.rows k = some a ∧
        b.familyId = a.familyId ∧ b.userId = a.userId := by
      intro l b after
      rcases cases_ l b after with ⟨-, rfl⟩ | ⟨-, rfl⟩ | ⟨-, -, before⟩
      · exact ⟨token, current, there, issues.familyId, issues.userId⟩
      · exact ⟨token, current, there, replaces.familyId, replaces.userId⟩
      · exact ⟨l, b, before, rfl, rfl⟩
    have alive : ∀ l b, s'.tokens.rows l = some b → b.familyId = current.familyId →
        b.revokedAt = none → l = next := by
      intro l b after family none
      rcases cases_ l b after with ⟨rfl, -⟩ | ⟨-, rfl⟩ | ⟨-, second, before⟩
      · rfl
      · have revoked := replaces.revokedAt
        rw [none] at revoked
        cases revoked
      · exact (second (chains.unrevoked l token b current before there family none unrevoked)).elim
    constructor
    · intro k l a b first second family none none'
      by_cases same : a.familyId = current.familyId
      · rw [alive k a first same none, alive l b second (family.symm.trans same) none']
      · rcases cases_ k a first with ⟨-, rfl⟩ | ⟨-, rfl⟩ | ⟨-, -, before⟩
        · exact (same issues.familyId).elim
        · exact (same replaces.familyId).elim
        · rcases cases_ l b second with ⟨-, rfl⟩ | ⟨-, rfl⟩ | ⟨-, -, before'⟩
          · exact (same (family.trans issues.familyId)).elim
          · exact (same (family.trans replaces.familyId)).elim
          · exact chains.unrevoked k l a b before before' family none none'
    · intro k l a b first second family
      obtain ⟨k', a', before, family₁, user₁⟩ := old k a first
      obtain ⟨l', b', before', family₂, user₂⟩ := old l b second
      rw [user₁, user₂]
      exact chains.user k' l' a' b' before before' (family₁.symm.trans (family.trans family₂))
    · rw [rotations, List.map_cons, List.nodup_cons]
      refine ⟨fun member => ?_, chains.once⟩
      obtain ⟨r, member, same⟩ := List.mem_map.mp member
      exact unrotated r member same
    · rw [rotations, List.map_cons, List.nodup_cons]
      refine ⟨fun member => ?_, chains.origin⟩
      obtain ⟨r, member, same⟩ := List.mem_map.mp member
      exact (new r member).2 same
    · intro k a n after points
      rw [rotations]
      rcases cases_ k a after with ⟨-, rfl⟩ | ⟨rfl, rfl⟩ | ⟨-, -, before⟩
      · rw [issues.replacedById] at points
        cases points
      · rw [replaces.replacedById] at points
        cases points
        exact ⟨_, List.mem_cons_self, rfl, rfl⟩
      · obtain ⟨r, member, points⟩ := chains.replaced k a n before points
        exact ⟨r, List.mem_cons_of_mem _ member, points⟩
    · intro r member b after
      rw [rotations] at member
      rcases List.mem_cons.mp member with rfl | member
      · rcases cases_ token b after with ⟨same, -⟩ | ⟨-, rfl⟩ | ⟨-, second, -⟩
        · exact (apart same).elim
        · exact ⟨replaces.revokedAt, replaces.replacedById, replaces.familyId, replaces.userId⟩
        · exact (second rfl).elim
      · rcases cases_ r.token b after with ⟨same, -⟩ | ⟨same, -⟩ | ⟨-, -, before⟩
        · exact ((new r member).1 same).elim
        · exact (unrotated r member same).elim
        · exact chains.token r member b before
    · intro r member b after
      rw [rotations] at member
      rcases List.mem_cons.mp member with rfl | member
      · rcases cases_ next b after with ⟨-, rfl⟩ | ⟨same, -⟩ | ⟨first, -, -⟩
        · exact ⟨issues.familyId, issues.userId⟩
        · exact (apart same.symm).elim
        · exact (first rfl).elim
      · rcases cases_ r.next b after with ⟨same, -⟩ | ⟨same, rfl⟩ | ⟨-, -, before⟩
        · exact ((new r member).2 same).elim
        · rw [replaces.familyId, replaces.userId]
          exact chains.next r member current (same ▸ there)
        · exact chains.next r member b before
  | @issued _ _ token _ row _ _ vacant new issues fresh rows rotations =>
    have cases_ : ∀ l b, s'.tokens.rows l = some b →
        l = token ∧ b = row ∨ s.tokens.rows l = some b := by
      intro l b after
      rw [rows] at after
      rcases eq_or_ne l token with rfl | other
      · exact .inl ⟨rfl, by simpa using after.symm⟩
      · exact .inr (by simpa [other] using after)
    constructor
    · intro k l a b first second family none none'
      rcases cases_ k a first with ⟨rfl, rfl⟩ | before
      · rcases cases_ l b second with ⟨rfl, -⟩ | before'
        · rfl
        · exact (fresh l b before' family.symm).elim
      · rcases cases_ l b second with ⟨-, rfl⟩ | before'
        · exact (fresh k a before family).elim
        · exact chains.unrevoked k l a b before before' family none none'
    · intro k l a b first second family
      rcases cases_ k a first with ⟨rfl, rfl⟩ | before
      · rcases cases_ l b second with ⟨-, rfl⟩ | before'
        · rfl
        · exact (fresh l b before' family.symm).elim
      · rcases cases_ l b second with ⟨-, rfl⟩ | before'
        · exact (fresh k a before family).elim
        · exact chains.user k l a b before before' family
    · rw [rotations]
      exact chains.once
    · rw [rotations]
      exact chains.origin
    · intro k a n after points
      rw [rotations]
      rcases cases_ k a after with ⟨-, rfl⟩ | before
      · rw [issues.replacedById] at points
        cases points
      · exact chains.replaced k a n before points
    · intro r member b after
      rw [rotations] at member
      rcases cases_ r.token b after with ⟨same, -⟩ | before
      · exact ((new r member).1 same).elim
      · exact chains.token r member b before
    · intro r member b after
      rw [rotations] at member
      rcases cases_ r.next b after with ⟨same, -⟩ | before
      · exact ((new r member).2 same).elim
      · exact chains.next r member b before

omit [DecidableEq κ] [DecidableEq φ] [DecidableEq υ] [DecidableEq ι] in
theorem Chains.start (now : Nat) : Chains (Sessions.start now : Sessions κ φ υ ι) := by
  constructor <;> simp [Sessions.start, RowStore.start]

end Finstack.RefreshTokens
