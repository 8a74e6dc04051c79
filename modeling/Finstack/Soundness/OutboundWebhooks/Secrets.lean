import Finstack.Model.OutboundWebhooks.Secrets
import Finstack.Soundness.OutboundWebhooks.Signature

/-! # Every secret in its grace verifies

A receiver may know any secret that was returned, until the grace period of the rotation that
replaced it ends. Whichever it knows verifies what is signed, in runs in which no rotation commits
over a secret in its grace and nothing is signed that was read before a secret came to be known.
-/

namespace Finstack.OutboundWebhooks.Secrets

open Foundation
open scoped Schedule

variable {cipher : Cipher} {hmac : Hmac} {numerals : Numerals}

/-! ## Sealing -/

theorem secret_ne_nil (random : Text) : generateWebhookSecret random ≠ [] :=
  List.cons_ne_nil 'w' _

/-- What is sealed is opened again. -/
theorem open_seal (iv : Iv) {plaintext : Text} (nonempty : plaintext ≠ []) :
    SecretBox.open cipher (SecretBox.seal cipher iv plaintext) = some plaintext := by
  obtain ⟨ciphertext_ne, tag_ne⟩ := cipher.nonempty iv.text plaintext nonempty
  obtain ⟨ciphertext_plain, tag_plain⟩ := cipher.alphabet iv.text plaintext
  have pieces : ∀ piece ∈ [VERSION, iv.text, (cipher.encrypt iv.text plaintext).1,
      (cipher.encrypt iv.text plaintext).2], '.' ∉ piece := by
    simp only [List.forall_mem_cons]
    exact ⟨by decide, iv.alphabet, ciphertext_plain, tag_plain, by simp⟩
  have present : ¬ (VERSION ≠ VERSION ∨ iv.text = [] ∨ (cipher.encrypt iv.text plaintext).1 = [] ∨
      (cipher.encrypt iv.text plaintext).2 = []) := by
    simp [iv.nonempty, ciphertext_ne, tag_ne]
  simp only [SecretBox.seal, SecretBox.open, List.splitOn_intercalate '.' pieces (List.cons_ne_nil _ _)]
  rw [if_neg present]
  exact cipher.decrypt_encrypt iv.text plaintext

theorem ne_nil_of_open {sealed_ secret : Text}
    (opens : SecretBox.open cipher sealed_ = some secret) : sealed_ ≠ [] := by
  rintro rfl
  cases opens

/-! ## What a row stores -/

/-- The row stores the secret, for as long as its grace lasts. -/
def Endpoint.Stores (cipher : Cipher) (endpoint : Endpoint) (issue : Issue) : Prop :=
  SecretBox.open cipher endpoint.secretSealed = some issue.secret ∨
    ∃ previous expiresAt end_, endpoint.previousSecretSealed = some previous ∧
      endpoint.previousSecretExpiresAt = some expiresAt ∧
      SecretBox.open cipher previous = some issue.secret ∧
      issue.until? = some end_ ∧ end_ ≤ expiresAt

/-- What is stored in its grace is active. -/
theorem mem_activeSecrets {endpoint : Endpoint} {issue : Issue} {now : Nat} {secrets : List Text}
    (active : activeSecrets cipher endpoint now = some secrets)
    (stores : endpoint.Stores cipher issue) (grace : issue.InGrace now) :
    issue.secret ∈ secrets := by
  obtain ⟨current, opens, rest⟩ := Option.bind_eq_some_iff.mp active
  rcases stores with now_current | ⟨previous, expiresAt, end_, sealed_, expires, opened, until_, le⟩
  · obtain rfl := Option.mem_unique opens now_current
    split at rest
    · split_ifs at rest
      · obtain ⟨previous, -, rfl⟩ := Option.map_eq_some_iff.mp rest
        exact List.mem_cons_self
      · cases rest
        exact List.mem_cons_self
    · cases rest
      exact List.mem_cons_self
  · have later : previous ≠ [] ∧ expiresAt > now :=
      ⟨ne_nil_of_open opened, Nat.lt_of_lt_of_le (grace end_ until_) le⟩
    simp only [sealed_, expires, if_pos later, opened, Option.map_some] at rest
    cases rest
    exact List.mem_cons_of_mem _ List.mem_cons_self

/-- A rotation stores its own secret, and the one it has read. -/
theorem stores_update {endpoint row : Endpoint} {random : Text} {iv : Iv}
    {graceHours preparedAt : Nat} {issue : Issue} (own : issue.secret = generateWebhookSecret random ∨
      issue.KeptBy cipher graceHours endpoint preparedAt ∧ issue.until?.isSome = true) :
    (row.update (rotateChanges cipher graceHours endpoint (generateWebhookSecret random) iv
      preparedAt)).Stores cipher issue := by
  rcases own with own | ⟨⟨grace, opens, ends⟩, replaced⟩
  · left
    rw [own]
    exact open_seal iv (secret_ne_nil random)
  · right
    obtain ⟨end_, until_⟩ := Option.isSome_iff_exists.mp replaced
    exact ⟨_, _, end_, if_pos grace, if_pos grace, opens, until_, ends end_ until_⟩

/-! ## What becomes of a secret -/

/-- The same secret, later. -/
structure Issue.Became (issue issue' : Issue) : Prop where
  number : issue.number = issue'.number
  secret : issue.secret = issue'.secret
  kept : issue'.kept = true → issue.kept = true
  until? : issue.until? = none ∨ issue.until? = issue'.until?

theorem Issue.Became.inGrace {issue issue' : Issue} {now now' : Nat} (became : issue.Became issue')
    (later : now ≤ now') (grace : issue'.InGrace now') : issue.InGrace now := by
  intro end_ until_
  rcases became.until? with none | same
  · rw [none] at until_
    cases until_
  · rw [same] at until_
    exact Nat.lt_of_le_of_lt later (grace end_ until_)

theorem Endpoint.Stores.became {endpoint : Endpoint} {issue issue' : Issue}
    (stores : endpoint.Stores cipher issue) (became : issue.Became issue') :
    endpoint.Stores cipher issue' := by
  rcases stores with current | ⟨previous, expiresAt, end_, sealed_, expires, opened, until_, le⟩
  · exact .inl (became.secret ▸ current)
  · rcases became.until? with none | same
    · rw [none] at until_
      cases until_
    · exact .inr ⟨previous, expiresAt, end_, sealed_, expires, became.secret ▸ opened,
        same ▸ until_, le⟩

/-- Whatever was issued is there, later. -/
def Later (issued issued' : List Issue) : Prop :=
  issued.length ≤ issued'.length ∧ ∀ issue' ∈ issued', issue'.number < issued.length →
    ∃ issue ∈ issued, issue.Became issue'

theorem Later.refl (issued : List Issue) : Later issued issued :=
  ⟨Nat.le_refl _, fun issue member _ => ⟨issue, member, rfl, rfl, id, .inr rfl⟩⟩

theorem became_afterRotation (cipher : Cipher) (graceHours : Nat) (endpoint : Endpoint)
    (preparedAt : Nat) (issue : Issue) :
    issue.Became (issue.afterRotation cipher graceHours endpoint preparedAt) where
  number := rfl
  secret := rfl
  kept kept := (Bool.and_eq_true_iff.mp kept).1
  until? := by
    cases none : issue.until? with
    | none => exact .inl rfl
    | some end_ => exact .inr (by simp [Issue.afterRotation, Issue.replaced, none])

namespace System

variable {ι : Type} [DecidableEq ι] {s s' : System ι}

omit [DecidableEq ι] in
theorem later_giveOut (s : System ι) (number : Nat) : Later s.issued (s.giveOut number).issued := by
  refine ⟨by simp [giveOut], fun issue' member _ => ?_⟩
  obtain ⟨issue, there, rfl⟩ := List.mem_map.mp member
  refine ⟨issue, there, ?_⟩
  split_ifs
  · exact ⟨rfl, rfl, id, .inr rfl⟩
  · exact ⟨rfl, rfl, id, .inr rfl⟩

/-! ## What runs may do -/

/-- Whatever secret is known and will be in its grace once the rotation has replaced the current one,
is the one that the rotation has read, and its grace is no longer than the rotation's. -/
def MayCommit (cipher : Cipher) (s : System ι) (graceHours : Nat) (endpoint : Endpoint)
    (preparedAt : Nat) : Prop :=
  ∀ issue ∈ s.issued, issue.returned = true →
    (issue.replaced (graceEnd graceHours preparedAt)).InGrace s.now →
      (issue.replaced (graceEnd graceHours preparedAt)).KeptBy cipher graceHours endpoint preparedAt

/-- Every rotation since has stored the secret, or its grace has ended. -/
def MayReturn (s : System ι) (number : Nat) : Prop :=
  ∀ issue ∈ s.issued, issue.number = number → issue.InGrace s.now → issue.kept = true

/-- No secret has come to be known that was issued since. -/
def MaySign (s : System ι) (seen : Nat) : Prop :=
  ∀ issue ∈ s.issued, issue.returned = true → issue.InGrace s.now → issue.number < seen

def MayAdvance (cipher : Cipher) (s : System ι) (rotation : Rotation) : Prop :=
  match rotation.pc with
  | .commit endpoint _ preparedAt _ => s.MayCommit cipher rotation.graceHours endpoint preparedAt
  | .view number _ => s.MayReturn number
  | .get | .prepare _ | .returned _ | .refused => True

def MayDeliver (s : System ι) (delivery : Delivery) : Prop :=
  match delivery.pc with
  | .send _ seen => s.MaySign seen
  | .findEndpoint | .resolve _ _ | .sent | .failed => True

def Orderly (cipher : Cipher) : Action ι → System ι → Prop
  | .created, s => s.MayReturn 0
  | .rotation i _ _, s => ∀ rotation ∈ s.rotations i, s.MayAdvance cipher rotation
  | .delivery i, s => ∀ delivery ∈ s.deliveries i, s.MayDeliver delivery
  | .tick _, _ | .rotate _ _, _ | .deliver _ _, _ | .update _, _ | .remove _, _ => True

section

variable (s : System ι)

instance (graceHours : Nat) (endpoint : Endpoint) (preparedAt : Nat) :
    Decidable (s.MayCommit cipher graceHours endpoint preparedAt) :=
  inferInstanceAs (Decidable (∀ issue ∈ s.issued, _ → _ → _))

instance (number : Nat) : Decidable (s.MayReturn number) :=
  inferInstanceAs (Decidable (∀ issue ∈ s.issued, _ → _ → _))

instance (seen : Nat) : Decidable (s.MaySign seen) :=
  inferInstanceAs (Decidable (∀ issue ∈ s.issued, _ → _ → _))

instance : ∀ rotation, Decidable (s.MayAdvance cipher rotation)
  | ⟨graceHours, .commit endpoint _ preparedAt _⟩ =>
    inferInstanceAs (Decidable (s.MayCommit cipher graceHours endpoint preparedAt))
  | ⟨_, .view number _⟩ => inferInstanceAs (Decidable (s.MayReturn number))
  | ⟨_, .get⟩ | ⟨_, .prepare _⟩ | ⟨_, .returned _⟩ | ⟨_, .refused⟩ => .isTrue trivial

instance : ∀ delivery, Decidable (s.MayDeliver delivery)
  | ⟨_, .send _ seen⟩ => inferInstanceAs (Decidable (s.MaySign seen))
  | ⟨_, .findEndpoint⟩ | ⟨_, .resolve _ _⟩ | ⟨_, .sent⟩ | ⟨_, .failed⟩ => .isTrue trivial

instance : ∀ (a : Action ι) (s : System ι), Decidable (Orderly cipher a s)
  | .created, s => inferInstanceAs (Decidable (s.MayReturn 0))
  | .rotation i _ _, s =>
    inferInstanceAs (Decidable (∀ rotation ∈ s.rotations i, s.MayAdvance cipher rotation))
  | .delivery i, s =>
    inferInstanceAs (Decidable (∀ delivery ∈ s.deliveries i, s.MayDeliver delivery))
  | .tick _, _ | .rotate _ _, _ | .deliver _ _, _ | .update _, _ | .remove _, _ => .isTrue trivial

end

/-- Every secret that a receiver may have known when a delivery was signed verifies it, with any clock
that is within the receiver's tolerance. -/
def Verified (hmac : Hmac) (numerals : Numerals) (s : System ι) : Prop :=
  ∀ sent ∈ s.sent, ∀ secret ∈ sent.due, ∀ toleranceSeconds clock : Nat,
    ((clock : Int) - (sent.sentAt / 1000 : Nat) * 1000).natAbs ≤ toleranceSeconds * 1000 →
      verifySignatureHeader hmac numerals sent.header secret sent.body toleranceSeconds clock = true

/-! ## The invariant -/

end System

/-- What an attempt has read holds every secret that was stored then and ever since. -/
def Delivery.Pc.Holds (cipher : Cipher) (now : Nat) (issued : List Issue) : Delivery.Pc → Prop
  | .resolve endpoint seen => seen ≤ issued.length ∧
    ∀ issue ∈ issued, issue.kept = true → issue.number < seen → endpoint.Stores cipher issue
  | .send secrets seen => seen ≤ issued.length ∧
    ∀ issue ∈ issued, issue.kept = true → issue.number < seen → issue.InGrace now →
      issue.secret ∈ secrets
  | .findEndpoint | .sent | .failed => True

theorem Delivery.Pc.Holds.later {pc : Delivery.Pc} {now now' : Nat} {issued issued' : List Issue}
    (holds : pc.Holds cipher now issued) (time : now ≤ now') (later : Later issued issued') :
    pc.Holds cipher now' issued' := by
  obtain ⟨longer, before⟩ := later
  cases pc with
  | resolve endpoint seen =>
    obtain ⟨seen_le, stores⟩ := holds
    refine ⟨Nat.le_trans seen_le longer, fun issue' member kept number => ?_⟩
    obtain ⟨issue, there, became⟩ := before issue' member (Nat.lt_of_lt_of_le number seen_le)
    exact (stores issue there (became.kept kept) (became.number ▸ number)).became became
  | send secrets seen =>
    obtain ⟨seen_le, known⟩ := holds
    refine ⟨Nat.le_trans seen_le longer, fun issue' member kept number grace => ?_⟩
    obtain ⟨issue, there, became⟩ := before issue' member (Nat.lt_of_lt_of_le number seen_le)
    rw [← became.secret]
    exact known issue there (became.kept kept) (became.number ▸ number) (became.inGrace time grace)
  | findEndpoint => trivial
  | sent => trivial
  | failed => trivial

/-- What a rotation is about to write is what it has to. -/
def Rotation.Prepared (cipher : Cipher) (rotation : Rotation) : Prop :=
  ∀ endpoint secret preparedAt changes, rotation.pc = .commit endpoint secret preparedAt changes →
    ∃ random iv, secret = generateWebhookSecret random ∧
      changes = rotateChanges cipher rotation.graceHours endpoint secret iv preparedAt

namespace System

variable {ι : Type} {s s' : System ι}

structure Inv (cipher : Cipher) (hmac : Hmac) (numerals : Numerals) (s : System ι) : Prop where
  verified : s.Verified hmac numerals
  now : s.now ≤ lastMoment
  numbered : ∀ issue ∈ s.issued, issue.number < s.issued.length
  kept : ∀ issue ∈ s.issued, issue.returned = true → issue.InGrace s.now → issue.kept = true
  stored : ∀ issue ∈ s.issued, issue.kept = true → s.endpoint.Stores cipher issue
  prepared : ∀ i, ∀ rotation ∈ s.rotations i, rotation.Prepared cipher
  holds : ∀ i, ∀ delivery ∈ s.deliveries i, delivery.pc.Holds cipher s.now s.issued

theorem Inv.start (random : Text) (iv : Iv) :
    (start cipher random iv : System ι).Inv cipher hmac numerals where
  verified _ none := nomatch none
  now := Nat.zero_le _
  numbered issue member := by
    obtain rfl := List.mem_singleton.mp member
    exact Nat.zero_lt_one
  kept issue member known _ := by
    obtain rfl := List.mem_singleton.mp member
    cases known
  stored issue member _ := by
    obtain rfl := List.mem_singleton.mp member
    exact .inl (open_seal iv (secret_ne_nil random))
  prepared _ _ none := nomatch none
  holds _ _ none := nomatch none

section

variable {i : ι} (inv : s.Inv cipher hmac numerals)
include inv

theorem Inv.tick {now : Nat} (later : s.now ≤ now) (shown : now ≤ lastMoment) :
    ({ s with now } : System ι).Inv cipher hmac numerals :=
  { inv with
    now := shown
    kept := fun issue member known grace =>
      inv.kept issue member known fun end_ until_ => Nat.lt_of_le_of_lt later (grace end_ until_)
    holds := fun i delivery there => (inv.holds i delivery there).later later (.refl _) }

theorem Inv.giveOut {number : Nat} (may : s.MayReturn number) :
    (s.giveOut number).Inv cipher hmac numerals where
  verified := inv.verified
  now := inv.now
  numbered issue' member := by
    obtain ⟨issue, there, rfl⟩ := List.mem_map.mp member
    have bound := inv.numbered issue there
    simp only [System.giveOut, List.length_map]
    split_ifs
    · exact bound
    · exact bound
  kept issue' member known grace := by
    obtain ⟨issue, there, rfl⟩ := List.mem_map.mp member
    split_ifs at known grace ⊢ with own
    · exact may issue there own grace
    · exact inv.kept issue there known grace
  stored issue' member kept := by
    obtain ⟨issue, there, rfl⟩ := List.mem_map.mp member
    split_ifs at kept ⊢
    · exact inv.stored issue there kept
    · exact inv.stored issue there kept
  prepared := inv.prepared
  holds i delivery there := (inv.holds i delivery there).later (Nat.le_refl _) (later_giveOut s number)

/-- The row is written for the sake of something else. -/
theorem Inv.endpoint {endpoint : Endpoint}
    (same : endpoint.secretSealed = s.endpoint.secretSealed ∧
      endpoint.previousSecretSealed = s.endpoint.previousSecretSealed ∧
      endpoint.previousSecretExpiresAt = s.endpoint.previousSecretExpiresAt) :
    ({ s with endpoint } : System ι).Inv cipher hmac numerals where
  __ := inv
  stored issue member kept := by
    have stores := inv.stored issue member kept
    unfold Endpoint.Stores at stores ⊢
    rwa [same.1, same.2.1, same.2.2]

theorem Inv.commit {graceHours preparedAt : Nat} {endpoint : Endpoint} {random : Text} {iv : Iv}
    (may : s.MayCommit cipher graceHours endpoint preparedAt) :
    ({ s with
      endpoint := s.endpoint.update (rotateChanges cipher graceHours endpoint
        (generateWebhookSecret random) iv preparedAt)
      issued := ⟨s.issued.length, generateWebhookSecret random, false, none, true⟩ :: s.issued.map
        (Issue.afterRotation cipher graceHours endpoint preparedAt) } :
          System ι).Inv cipher hmac numerals where
  verified := inv.verified
  now := inv.now
  numbered issue' member := by
    rw [List.length_cons, List.length_map]
    rcases List.mem_cons.mp member with rfl | earlier
    · exact Nat.lt_succ_self _
    · obtain ⟨issue, there, rfl⟩ := List.mem_map.mp earlier
      exact Nat.lt_succ_of_lt (inv.numbered issue there)
  kept issue' member known grace := by
    rcases List.mem_cons.mp member with rfl | earlier
    · rfl
    · obtain ⟨issue, there, rfl⟩ := List.mem_map.mp earlier
      have became := became_afterRotation cipher graceHours endpoint preparedAt issue
      have before := inv.kept issue there known (became.inGrace (Nat.le_refl _) grace)
      exact Bool.and_eq_true_iff.mpr ⟨before, decide_eq_true (may issue there known grace)⟩
  stored issue' member kept := by
    rcases List.mem_cons.mp member with rfl | earlier
    · exact stores_update (.inl rfl)
    · obtain ⟨issue, there, rfl⟩ := List.mem_map.mp earlier
      exact stores_update (.inr ⟨of_decide_eq_true (Bool.and_eq_true_iff.mp kept).2, rfl⟩)
  prepared := inv.prepared
  holds i delivery there := by
    refine (inv.holds i delivery there).later (Nat.le_refl _) ⟨by simp, fun issue' member number => ?_⟩
    rcases List.mem_cons.mp member with rfl | earlier
    · exact absurd number (Nat.lt_irrefl _)
    · obtain ⟨issue, present, rfl⟩ := List.mem_map.mp earlier
      exact ⟨issue, present, became_afterRotation ..⟩

theorem Inv.sign {secrets : List Text} {seen : Nat} {body : Text} (may : s.MaySign seen)
    (holds : (Delivery.Pc.send secrets seen).Holds cipher s.now s.issued) :
    ({ s with sent := ⟨signatureHeader hmac numerals secrets body (s.now / 1000), body, s.now,
      s.due⟩ :: s.sent } : System ι).Inv cipher hmac numerals where
  __ := inv
  verified sent member secret due toleranceSeconds clock recent := by
    rcases List.mem_cons.mp member with rfl | earlier
    · obtain ⟨issue, there, rfl⟩ := List.mem_map.mp due
      obtain ⟨there, known⟩ := List.mem_filter.mp there
      obtain ⟨returned, grace⟩ := Bool.and_eq_true_iff.mp known
      have grace := of_decide_eq_true grace
      have kept := inv.kept issue there returned grace
      have active := holds.2 issue there kept (may issue there returned grace) grace
      have safe : s.now / 1000 < 2 ^ 53 := by
        have := inv.now
        simp only [lastMoment] at this
        omega
      exact verify_signatureHeader safe active recent
    · exact inv.verified sent earlier secret due toleranceSeconds clock recent

/-! ## Steps and runs -/

variable [DecidableEq ι]

theorem Inv.rotation {rotation : Rotation} {pc : Pc}
    (prepared : { rotation with pc }.Prepared cipher) :
    (s.rotation i rotation pc).Inv cipher hmac numerals where
  __ := inv
  prepared j other there := by
    by_cases same : j = i
    · subst same
      obtain rfl : { rotation with pc } = other := by simpa [System.rotation] using there
      exact prepared
    · exact inv.prepared j other (by simpa [System.rotation, same] using there)

theorem Inv.delivery {delivery : Delivery} {pc : Delivery.Pc}
    (holds : pc.Holds cipher s.now s.issued) :
    (s.delivery i delivery pc).Inv cipher hmac numerals where
  __ := inv
  holds j other there := by
    by_cases same : j = i
    · subst same
      obtain rfl : { delivery with pc } = other := by simpa [System.delivery] using there
      exact holds
    · exact inv.holds j other (by simpa [System.delivery, same] using there)

theorem Inv.advanceRotation {random : Text} {iv : Iv} {rotation : Rotation}
    (there : s.rotations i = some rotation) (may : s.MayAdvance cipher rotation)
    (advanced : s.advanceRotation cipher i random iv rotation = some s') :
    s'.Inv cipher hmac numerals := by
  unfold System.advanceRotation at advanced
  unfold MayAdvance at may
  cases pc : rotation.pc with
  | get =>
    simp only [pc] at advanced
    split_ifs at advanced <;> cases advanced
    · exact inv.rotation nofun
    · exact inv.rotation nofun
  | prepare endpoint =>
    simp only [pc] at advanced
    cases advanced
    refine inv.rotation ?_
    rintro _ _ _ _ ⟨⟩
    exact ⟨random, iv, rfl, rfl⟩
  | commit endpoint secret preparedAt changes =>
    simp only [pc] at advanced may
    obtain ⟨random, iv, rfl, rfl⟩ := inv.prepared i rotation there _ _ _ _ pc
    cases advanced
    exact (inv.commit may).rotation nofun
  | view number secret =>
    simp only [pc] at advanced may
    split_ifs at advanced <;> cases advanced
    · exact inv.rotation nofun
    · exact (inv.giveOut may).rotation nofun
  | returned secret => simp [pc] at advanced
  | refused => simp [pc] at advanced

theorem Inv.advanceDelivery {delivery : Delivery} (there : s.deliveries i = some delivery)
    (may : s.MayDeliver delivery)
    (advanced : s.advanceDelivery cipher hmac numerals i delivery = some s') :
    s'.Inv cipher hmac numerals := by
  have holds := inv.holds i delivery there
  unfold System.advanceDelivery at advanced
  unfold MayDeliver at may
  cases pc : delivery.pc with
  | findEndpoint =>
    simp only [pc] at advanced
    split_ifs at advanced <;> cases advanced
    · exact inv.delivery trivial
    · exact inv.delivery ⟨Nat.le_refl _, fun issue member kept _ => inv.stored issue member kept⟩
  | resolve endpoint seen =>
    simp only [pc] at advanced holds
    split at advanced <;> cases advanced
    · exact inv.delivery trivial
    · next secrets active =>
      refine inv.delivery ⟨holds.1, fun issue member kept number grace => ?_⟩
      exact mem_activeSecrets active (holds.2 issue member kept number) grace
  | send secrets seen =>
    simp only [pc] at advanced holds may
    cases advanced
    exact (inv.sign may holds).delivery trivial
  | sent => simp [pc] at advanced
  | failed => simp [pc] at advanced

theorem Inv.step {a : Action ι} (orderly : Orderly cipher a s)
    (stepped : step cipher hmac numerals a s = some s') : s'.Inv cipher hmac numerals := by
  cases a with
  | tick now =>
    simp only [System.step] at stepped
    split_ifs at stepped with later
    cases stepped
    exact inv.tick later.1 later.2
  | created =>
    cases stepped
    exact inv.giveOut orderly
  | rotate i graceHours =>
    simp only [System.step] at stepped
    split_ifs at stepped
    cases stepped
    exact inv.rotation nofun
  | rotation i random iv =>
    obtain ⟨rotation, there, advanced⟩ := Option.bind_eq_some_iff.mp stepped
    exact inv.advanceRotation there (orderly rotation there) advanced
  | deliver i body =>
    simp only [System.step] at stepped
    split_ifs at stepped
    cases stepped
    exact inv.delivery trivial
  | delivery i =>
    obtain ⟨delivery, there, advanced⟩ := Option.bind_eq_some_iff.mp stepped
    exact inv.advanceDelivery there (orderly delivery there) advanced
  | update enabled =>
    cases stepped
    exact inv.endpoint ⟨rfl, rfl, rfl⟩
  | remove now =>
    cases stepped
    exact inv.endpoint ⟨rfl, rfl, rfl⟩

end

variable [DecidableEq ι]

/-- In every orderly run, from the creation of an endpoint on, every secret that was returned verifies
what is signed until the grace period of the rotation that replaced it ends. -/
theorem verified_in_grace {random : Text} {iv : Iv}
    (reaches : Reaches cipher hmac numerals (Orderly cipher) (start cipher random iv) s) :
    s.Verified hmac numerals :=
  (reaches.invariant (Inv cipher hmac numerals) (fun _ _ _ inv orderly stepped =>
    inv.step orderly stepped) (.start random iv)).verified

/-- Which secrets verify what was signed, the last delivery first. -/
def checks (hmac : Hmac) (numerals : Numerals) (s : System ι) : List (List Bool) :=
  s.sent.map fun sent => sent.due.map fun secret =>
    verifySignatureHeader hmac numerals sent.header secret sent.body 300 sent.sentAt

omit [DecidableEq ι] in
theorem Verified.checks (verified : s.Verified hmac numerals) :
    ∀ row ∈ s.checks hmac numerals, false ∉ row := by
  intro row member lost
  obtain ⟨sent, there, rfl⟩ := List.mem_map.mp member
  obtain ⟨secret, due, fails⟩ := List.mem_map.mp lost
  have verifies := verified sent there secret due 300 sent.sentAt (by omega)
  rw [fails] at verifies
  cases verifies

end System

/-! ## Runs -/

/-- A cipher that only marks every character. -/
def mark (text : Text) : Text := text.flatMap fun c => if c = '.' then ['d', 'd'] else ['c', c]

def unmark : Text → Text
  | 'd' :: _ :: rest => '.' :: unmark rest
  | _ :: c :: rest => c :: unmark rest
  | _ => []

theorem unmark_mark (text : Text) : unmark (mark text) = text := by
  induction text with
  | nil => rfl
  | cons c text ih =>
    unfold mark at ih ⊢
    rw [List.flatMap_cons]
    split_ifs with dot
    · rw [dot]
      exact congrArg ('.' :: ·) ih
    · exact congrArg (c :: ·) ih

theorem dot_not_mem_mark (text : Text) : '.' ∉ mark text := by
  intro member
  obtain ⟨c, -, dot⟩ := List.mem_flatMap.mp member
  split_ifs at dot with same
  · exact absurd dot (by decide)
  · rcases List.mem_pair.mp dot with first | second
    · exact absurd first (by decide)
    · exact same second.symm

theorem mark_ne_nil {text : Text} (nonempty : text ≠ []) : mark text ≠ [] := by
  intro empty
  rw [← unmark_mark text, empty] at nonempty
  exact nonempty rfl

def marking : Cipher where
  encrypt _ plaintext := (mark plaintext, ['t'])
  decrypt _ ciphertext _ := some (unmark ciphertext)
  decrypt_encrypt _ plaintext := congrArg some (unmark_mark plaintext)
  alphabet _ plaintext := ⟨dot_not_mem_mark plaintext, by simp⟩
  nonempty _ _ nonempty := ⟨mark_ne_nil nonempty, List.cons_ne_nil _ _⟩

/-- The last digit of the key, in every place. -/
def lastDigits : Hmac where
  digest key _ := List.replicate 64 ((key.getLast?.filter isHexDigit).getD '0')
  hex key _ := by
    have digit : isHexDigit ((key.getLast?.filter isHexDigit).getD '0') = true := by
      cases last : key.getLast?.filter isHexDigit with
      | none => rfl
      | some c => exact (Option.filter_eq_some_iff.mp last).2
    simp [isHexDigest, digit]

def plainNumerals : Numerals := ⟨fun _ => none, fun _ => []⟩

def zeroIv : Iv := ⟨['A'], by decide, by decide⟩

namespace System

/-- A rotation from its lookup to its return. -/
def rotating (i : Fin 3) (graceHours : Nat) (random : Text) : List (Action (Fin 3)) :=
  [.rotate i graceHours, .rotation i [] zeroIv, .rotation i random zeroIv, .rotation i [] zeroIv,
    .rotation i [] zeroIv]

/-- An attempt of a delivery from its lookup to its signature. -/
def delivering (i : Fin 3) : List (Action (Fin 3)) :=
  [.deliver i "{}".toList, .delivery i, .delivery i, .delivery i]

/-- One rotation, with a delivery in its grace, and one after it. -/
theorem verified_in_one_grace : ∃ s : System (Fin 3),
    Reaches marking lastDigits plainNumerals (Orderly marking) (start marking ['0'] zeroIv) s ∧
      s.Verified lastDigits plainNumerals ∧
      s.sent.map (·.due) = [["whsec_1".toList], ["whsec_1".toList, "whsec_0".toList]] := by
  have ran : ∃ s ∈ Schedule.run (step marking lastDigits plainNumerals) (Orderly marking)
      (.created :: rotating 0 24 ['1'] ++ delivering 0 ++ .tick 86400000 :: delivering 1)
        (start marking ['0'] zeroIv),
      s.sent.map (·.due) = [["whsec_1".toList], ["whsec_1".toList, "whsec_0".toList]] := by
    decide +kernel
  obtain ⟨s, ran, due⟩ := ran
  have reaches := Schedule.reaches_of_run ran
  exact ⟨s, reaches, verified_in_grace reaches, due⟩

/-- Two rotations within one grace period, one after the other. -/
def again : List (Action (Fin 3)) :=
  .created :: rotating 0 24 ['1'] ++ .tick 3600000 :: rotating 1 24 ['2'] ++ delivering 0

/-- Two rotations that have both read the row before either commits. -/
def overlapping : List (Action (Fin 3)) :=
  [.created, .rotate 0 24, .rotate 1 24, .rotation 0 [] zeroIv, .rotation 1 [] zeroIv,
    .rotation 0 ['1'] zeroIv, .rotation 1 ['2'] zeroIv, .rotation 0 [] zeroIv, .rotation 0 [] zeroIv,
    .rotation 1 [] zeroIv, .rotation 1 [] zeroIv] ++ delivering 0

/-- A delivery that has read the row before a rotation, and is signed after it has returned. -/
def readBefore : List (Action (Fin 3)) :=
  .created :: .deliver 0 "{}".toList :: .delivery 0 :: rotating 0 24 ['1'] ++
    [.delivery 0, .delivery 0]

/-- What a run in any order comes to, from a creation. -/
def runs (actions : List (Action (Fin 3))) : Option (System (Fin 3)) :=
  Schedule.run (step marking lastDigits plainNumerals) Schedule.Any actions
    (start marking ['0'] zeroIv)

theorem lost_of_run {actions : List (Action (Fin 3))}
    (ran : ∃ s ∈ runs actions, ∃ row ∈ s.checks lastDigits plainNumerals, false ∈ row) :
    ∃ s, runs actions = some s ∧
      Reaches marking lastDigits plainNumerals Schedule.Any (start marking ['0'] zeroIv) s ∧
        ¬ s.Verified lastDigits plainNumerals := by
  obtain ⟨s, ran, row, there, fails⟩ := ran
  exact ⟨s, ran, Schedule.reaches_of_run ran, fun verified => verified.checks row there fails⟩

/-- Any of them leaves a secret in its grace that does not verify what is signed. -/
theorem lost_in_grace :
    (∃ s, runs again = some s ∧
      Reaches marking lastDigits plainNumerals Schedule.Any (start marking ['0'] zeroIv) s ∧
        ¬ s.Verified lastDigits plainNumerals) ∧
    (∃ s, runs overlapping = some s ∧
      Reaches marking lastDigits plainNumerals Schedule.Any (start marking ['0'] zeroIv) s ∧
        ¬ s.Verified lastDigits plainNumerals) ∧
    ∃ s, runs readBefore = some s ∧
      Reaches marking lastDigits plainNumerals Schedule.Any (start marking ['0'] zeroIv) s ∧
        ¬ s.Verified lastDigits plainNumerals :=
  ⟨lost_of_run (by decide +kernel), lost_of_run (by decide +kernel), lost_of_run (by decide +kernel)⟩

end System

end Finstack.OutboundWebhooks.Secrets
