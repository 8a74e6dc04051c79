import Finstack.Model.Cli.Listener
import Mathlib.Data.List.Pairwise

/-! # What the listener forwards

Every key is forwarded at most `MAX_DELIVERY_ATTEMPTS` times, and never again once it was delivered
or given up, whatever sources and FinStack answer. That events from before the start stay quiet is up
to the first tick: a source whose poll fails then is not asked what it has until the next one, which
takes it for new.
-/

namespace Finstack.Cli

open Foundation

variable {ι : Type} [DecidableEq ι] {options : ListenerOptions ι} {c c' : Console ι}

/-! ## Tries -/

/-- How often a key was forwarded. -/
def tries (posts : List Post) (key : String) : Nat :=
  (posts.filter fun post => post.delivery.key = key).length

theorem tries_append (posts : List Post) (post : Post) (key : String) :
    tries (posts ++ [post]) key = tries posts key + if post.delivery.key = key then 1 else 0 := by
  unfold tries
  rw [List.filter_append, List.length_append]
  by_cases same : post.delivery.key = key <;> simp [same]

/-- What the maps say about what was posted. -/
structure Counted (listener : Listener) (posts : List Post) : Prop where
  /-- A key that is still tried has its tries counted. -/
  counted : ∀ key ∉ listener.delivered, (listener.attempts key).getD 0 = tries posts key ∧
    tries posts key < MAX_DELIVERY_ATTEMPTS
  bounded : ∀ key, tries posts key ≤ MAX_DELIVERY_ATTEMPTS
  settled : ∀ post ∈ posts, post.result ≠ .willRetry → post.delivery.key ∈ listener.delivered
  delivered : ∀ post ∈ posts, post.result = .delivered ↔ post.answer.ok = true
  /-- Only what will be retried is forwarded again. -/
  ordered : posts.Pairwise fun earlier later =>
    earlier.delivery.key = later.delivery.key → earlier.result = .willRetry

/-- What `deliver` does to the maps. -/
theorem deliver_cases (delivery : Delivery) (answer : Answer) (listener : Listener) :
    (answer.ok = true ∧ (listener.deliver delivery answer).2 = .delivered ∧
      (listener.deliver delivery answer).1.delivered = delivery.key :: listener.delivered ∧
      ∀ key ≠ delivery.key, (listener.deliver delivery answer).1.attempts key = listener.attempts key) ∨
    (answer.ok = false ∧ (listener.deliver delivery answer).2 = .givenUp ∧
      MAX_DELIVERY_ATTEMPTS ≤ (listener.attempts delivery.key).getD 0 + 1 ∧
      (listener.deliver delivery answer).1.delivered = delivery.key :: listener.delivered ∧
      ∀ key ≠ delivery.key, (listener.deliver delivery answer).1.attempts key = listener.attempts key) ∨
    (answer.ok = false ∧ (listener.deliver delivery answer).2 = .willRetry ∧
      (listener.attempts delivery.key).getD 0 + 1 < MAX_DELIVERY_ATTEMPTS ∧
      (listener.deliver delivery answer).1.delivered = listener.delivered ∧
      (listener.deliver delivery answer).1.attempts =
        Function.update listener.attempts delivery.key
          (some ((listener.attempts delivery.key).getD 0 + 1))) := by
  unfold Listener.deliver
  dsimp only
  split_ifs with ok ended
  · exact .inl ⟨ok, rfl, rfl, fun key other => Function.update_of_ne other ..⟩
  · exact .inr (.inl ⟨by simpa using ok, rfl, ended, rfl,
      fun key other => Function.update_of_ne other ..⟩)
  · exact .inr (.inr ⟨by simpa using ok, rfl, by omega, rfl, rfl⟩)

theorem deliver_started (delivery : Delivery) (answer : Answer) (listener : Listener) :
    (listener.deliver delivery answer).1.started = listener.started := by
  unfold Listener.deliver
  dsimp only
  split_ifs <;> rfl

theorem deliver_delivered (delivery : Delivery) (answer : Answer) (listener : Listener) {key : String}
    (noted : key ∈ listener.delivered) : key ∈ (listener.deliver delivery answer).1.delivered := by
  rcases deliver_cases delivery answer listener with ⟨-, -, same, -⟩ | ⟨-, -, -, same, -⟩ |
    ⟨-, -, -, same, -⟩ <;> rw [same]
  · exact List.mem_cons_of_mem _ noted
  · exact List.mem_cons_of_mem _ noted
  · exact noted

/-- A key that is no longer tried only leaves more to be said. -/
theorem Counted.grows {listener listener' : Listener} {posts : List Post}
    (counted : Counted listener posts) (attempts : listener'.attempts = listener.attempts)
    (delivered : ∀ key ∈ listener.delivered, key ∈ listener'.delivered) :
    Counted listener' posts where
  counted key untried := by
    rw [attempts]
    exact counted.counted key fun noted => untried (delivered key noted)
  bounded := counted.bounded
  settled post member ended := delivered _ (counted.settled post member ended)
  delivered := counted.delivered
  ordered := counted.ordered

theorem Counted.post {listener : Listener} {posts : List Post} (counted : Counted listener posts)
    {delivery : Delivery} (untried : delivery.key ∉ listener.delivered) (request : Request)
    (answer : Answer) :
    Counted (listener.deliver delivery answer).1
      (posts ++ [⟨delivery, request, answer, (listener.deliver delivery answer).2⟩]) := by
  obtain ⟨count, room⟩ := counted.counted _ untried
  have cases := deliver_cases delivery answer listener
  refine ⟨?_, ?_, ?_, ?_, ?_⟩
  · intro key fresh
    rw [tries_append]
    rcases eq_or_ne delivery.key key with rfl | other
    · rcases cases with ⟨-, -, same, -⟩ | ⟨-, -, -, same, -⟩ | ⟨-, -, least, -, same⟩
      · exact absurd (same ▸ List.mem_cons_self) fresh
      · exact absurd (same ▸ List.mem_cons_self) fresh
      · rw [if_pos rfl, same, Function.update_self, ← count]
        exact ⟨rfl, least⟩
    · rw [if_neg other]
      rcases cases with ⟨-, -, same, kept⟩ | ⟨-, -, -, same, kept⟩ | ⟨-, -, -, same, kept⟩
      · rw [kept key other.symm]
        exact counted.counted key fun noted => fresh (same ▸ List.mem_cons_of_mem _ noted)
      · rw [kept key other.symm]
        exact counted.counted key fun noted => fresh (same ▸ List.mem_cons_of_mem _ noted)
      · rw [kept, Function.update_of_ne other.symm]
        exact counted.counted key fun noted => fresh (same ▸ noted)
  · intro key
    rw [tries_append]
    have before := counted.bounded key
    split_ifs with same
    · have last : tries posts key < MAX_DELIVERY_ATTEMPTS := same ▸ room
      omega
    · omega
  · intro post member ended
    rcases List.mem_append.mp member with earlier | new
    · exact deliver_delivered _ _ _ (counted.settled post earlier ended)
    · obtain rfl := List.mem_singleton.mp new
      rcases cases with ⟨-, -, same, -⟩ | ⟨-, -, -, same, -⟩ | ⟨-, retry, -⟩
      · exact same ▸ List.mem_cons_self
      · exact same ▸ List.mem_cons_self
      · exact absurd retry ended
  · intro post member
    rcases List.mem_append.mp member with earlier | new
    · exact counted.delivered post earlier
    · obtain rfl := List.mem_singleton.mp new
      rcases cases with ⟨ok, result, -⟩ | ⟨ok, result, -⟩ | ⟨ok, result, -⟩ <;> simp [ok, result]
  · refine List.pairwise_append.mpr ⟨counted.ordered, List.pairwise_singleton .., ?_⟩
    intro earlier member later new same
    obtain rfl := List.mem_singleton.mp new
    by_contra ended
    exact untried (same ▸ counted.settled earlier member ended)

namespace Console

/-! ## What a step does -/

/-- What a step does, and from where. -/
inductive Effect (options : ListenerOptions ι) (c : Console ι) : Action ι → Console ι → Prop
  | happens {i : ι} {delivery : Delivery} : Effect options c (.happen i delivery)
      { c with events := Function.update c.events i (c.events i ++ [delivery]) }
  | ticks (idle : c.pc = .idle) : Effect options c .tick { c with
      listener := { c.listener with started := true }
      pc := .polling (!c.listener.started && !options.replay) options.sources
      atStart := if c.listener.started then c.atStart else c.keys }
  | lists {baseline : Bool} {i : ι} {sources : List ι}
      (here : c.pc = .polling baseline (i :: sources)) : Effect options c (.poll none) { c with
        listener := c.listener.pollSucceeded (options.provider i)
        pc := .delivering baseline (c.events i) sources }
  | fails {baseline : Bool} {i : ι} {sources : List ι} {message : String}
      (here : c.pc = .polling baseline (i :: sources)) :
      Effect options c (.poll (some message)) { c with
        listener := c.listener.pollFailed (options.provider i) message
        pc := .polling baseline sources }
  | ends {baseline : Bool} (here : c.pc = .polling baseline []) :
      Effect options c .advance { c with pc := .idle }
  | turns {baseline : Bool} {sources : List ι} (here : c.pc = .delivering baseline [] sources) :
      Effect options c .advance { c with pc := .polling baseline sources }
  | skips {baseline : Bool} {delivery : Delivery} {deliveries : List Delivery} {sources : List ι}
      (here : c.pc = .delivering baseline (delivery :: deliveries) sources)
      (noted : delivery.key ∈ c.listener.delivered) :
      Effect options c .advance { c with pc := .delivering baseline deliveries sources }
  | notes {delivery : Delivery} {deliveries : List Delivery} {sources : List ι}
      (here : c.pc = .delivering true (delivery :: deliveries) sources) :
      Effect options c .advance { c with
        listener := c.listener.note delivery.key
        pc := .delivering true deliveries sources }
  | posts {delivery : Delivery} {deliveries : List Delivery} {sources : List ι} {answer : Answer}
      (here : c.pc = .delivering false (delivery :: deliveries) sources)
      (untried : delivery.key ∉ c.listener.delivered) : Effect options c (.post answer) { c with
        listener := (c.listener.deliver delivery answer).1
        pc := .delivering false deliveries sources
        posts := c.posts ++ [⟨delivery, request options.forwardTo delivery, answer,
          (c.listener.deliver delivery answer).2⟩] }

theorem effect_of_step {action : Action ι} (stepped : step options action c = some c') :
    Effect options c action c' := by
  cases action with
  | happen i delivery =>
    cases stepped
    exact .happens
  | tick =>
    simp only [step, tick] at stepped
    split at stepped <;> cases stepped
    exact .ticks ‹_›
  | poll failure =>
    simp only [step, poll] at stepped
    split at stepped
    · split at stepped <;> cases stepped
      · exact .lists ‹_›
      · exact .fails ‹_›
    · cases stepped
  | advance =>
    simp only [step, advance] at stepped
    split at stepped
    · cases stepped
      exact .ends ‹_›
    · cases stepped
      exact .turns ‹_›
    · rename_i baseline delivery deliveries sources here
      split_ifs at stepped with noted old <;> cases stepped
      · exact .skips here noted
      · cases old
        exact .notes here
    · cases stepped
  | post answer =>
    simp only [step, post] at stepped
    split at stepped
    · split_ifs at stepped with noted
      cases stepped
      exact .posts ‹_› noted
    · cases stepped

theorem pollFailed_delivered (provider message : String) (listener : Listener) :
    (listener.pollFailed provider message).delivered = listener.delivered ∧
      (listener.pollFailed provider message).attempts = listener.attempts ∧
      (listener.pollFailed provider message).started = listener.started := by
  unfold Listener.pollFailed
  split_ifs <;> exact ⟨rfl, rfl, rfl⟩

/-- Tries are counted in every run. -/
theorem counted_effect (counted : Counted c.listener c.posts) {action : Action ι}
    (effect : Effect options c action c') : Counted c'.listener c'.posts := by
  cases effect with
  | ticks => exact counted.grows rfl fun _ noted => noted
  | lists => exact counted.grows rfl fun _ noted => noted
  | @fails _ i _ message =>
    obtain ⟨delivered, attempts, -⟩ :=
      pollFailed_delivered (options.provider i) message c.listener
    exact counted.grows attempts fun _ noted => delivered ▸ noted
  | notes => exact counted.grows rfl fun _ noted => List.mem_cons_of_mem _ noted
  | posts here untried => exact counted.post untried _ _
  | happens | ends | turns | skips => exact counted

/-! ## What there was at the start -/

/-- The first tick has yet to note this key, which the source `i` had. -/
def Awaits (c : Console ι) (i : ι) (key : String) : Pc ι → Prop
  | .polling true sources => i ∈ sources ∧ key ∈ c.keys i
  | .delivering true deliveries sources =>
    key ∈ deliveries.map (·.key) ∨ i ∈ sources ∧ key ∈ c.keys i
  | _ => False

/-- What there was at the start is noted, or will be before anything is forwarded. -/
structure Noted (options : ListenerOptions ι) (c : Console ι) : Prop where
  fresh : c.listener.started = false → c.pc = .idle ∧ c.posts = []
  noted : c.listener.started = true → ∀ i ∈ options.sources, ∀ key ∈ c.atStart i,
    key ∈ c.listener.delivered ∨ c.Awaits i key c.pc
  quiet : c.listener.started = true → ∀ i ∈ options.sources, ∀ key ∈ c.atStart i,
    ∀ post ∈ c.posts, post.delivery.key ≠ key

/-- A poll of the first tick fails only for a source that had nothing, and no answer of FinStack to an
event it has accepted is lost. -/
def Undisturbed : Action ι → Console ι → Prop
  | .poll (some _), c =>
    match c.pc with
    | .polling true (i :: _) => c.atStart i = []
    | _ => True
  | .post (.lost _ accepted), _ => accepted = false
  | _, _ => True

instance : ∀ (action : Action ι) (c : Console ι), Decidable (Undisturbed action c)
  | .poll (some _), c => by unfold Undisturbed; dsimp only; split <;> infer_instance
  | .post (.lost _ accepted), _ => inferInstanceAs (Decidable (accepted = false))
  | .post (.response _ _), _ | .poll none, _ | .happen _ _, _ | .tick, _ | .advance, _ =>
    .isTrue trivial

omit [DecidableEq ι] in
theorem Awaits.mono {i : ι} {key : String} {pc : Pc ι} (awaits : c.Awaits i key pc)
    (more : ∀ key ∈ c.keys i, key ∈ c'.keys i) : c'.Awaits i key pc := by
  unfold Awaits at awaits ⊢
  split at awaits
  · exact ⟨awaits.1, more _ awaits.2⟩
  · exact awaits.imp_right fun later => ⟨later.1, more _ later.2⟩
  · exact awaits

theorem Noted.effect (noReplay : options.replay = false) (noted : Noted options c)
    {action : Action ι} (admits : Undisturbed action c) (effect : Effect options c action c') :
    Noted options c' := by
  cases effect with
  | @happens j delivery =>
    refine ⟨noted.fresh, fun started i source key old => ?_, noted.quiet⟩
    refine (noted.noted started i source key old).imp_right fun awaits => awaits.mono ?_
    intro other member
    rcases eq_or_ne i j with rfl | different
    · simp only [keys, Function.update_self, List.map_append]
      exact List.mem_append_left _ member
    · simpa [keys, different] using member
  | ticks idle =>
    refine ⟨fun none => (nomatch none), fun _ i source key old => ?_, fun _ => ?_⟩
    · cases started : c.listener.started with
      | false =>
        rw [started] at old
        refine .inr ?_
        simp only [noReplay]
        exact ⟨source, old⟩
      | true =>
        rw [started] at old
        refine .inl ((noted.noted started i source key old).resolve_right fun awaits => ?_)
        rw [idle] at awaits
        exact awaits
    · cases started : c.listener.started with
      | false =>
        rw [(noted.fresh started).2]
        exact fun _ _ _ _ _ none => by cases none
      | true => exact noted.quiet started
  | @lists baseline j sources here =>
    refine ⟨fun none => ?_, fun started i source key old => ?_, noted.quiet⟩
    · rw [(noted.fresh none).1] at here
      cases here
    · refine (noted.noted started i source key old).imp_right fun awaits => ?_
      rw [here] at awaits
      cases baseline with
      | false => exact awaits
      | true =>
        obtain ⟨member, listed⟩ := awaits
        rcases List.mem_cons.mp member with rfl | later
        · exact .inl listed
        · exact .inr ⟨later, listed⟩
  | @fails baseline j sources message here =>
    obtain ⟨delivered, -, same⟩ := pollFailed_delivered (options.provider j) message c.listener
    refine ⟨fun none => ?_, fun started i source key old => ?_, fun started => ?_⟩
    · rw [(noted.fresh (same.symm.trans none)).1] at here
      cases here
    · have before := noted.noted (same.symm.trans started) i source key old
      rw [here] at before
      dsimp only
      rw [delivered]
      refine before.imp_right fun awaits => ?_
      cases baseline with
      | false => exact awaits
      | true =>
        obtain ⟨member, listed⟩ := awaits
        rcases List.mem_cons.mp member with rfl | later
        · -- nothing was there
          simp only [Undisturbed, here] at admits
          rw [admits] at old
          cases old
        · exact ⟨later, listed⟩
    · exact noted.quiet (same.symm.trans started)
  | @ends baseline here =>
    refine ⟨fun none => ⟨rfl, (noted.fresh none).2⟩, fun started i source key old => ?_, noted.quiet⟩
    refine .inl ((noted.noted started i source key old).resolve_right fun awaits => ?_)
    rw [here] at awaits
    cases baseline with
    | false => exact awaits
    | true => cases awaits.1
  | @turns baseline sources here =>
    refine ⟨fun none => ?_, fun started i source key old => ?_, noted.quiet⟩
    · rw [(noted.fresh none).1] at here
      cases here
    · refine (noted.noted started i source key old).imp_right fun awaits => ?_
      rw [here] at awaits
      cases baseline with
      | false => exact awaits
      | true => exact awaits.resolve_left fun none => by cases none
  | @skips baseline delivery deliveries sources here there =>
    refine ⟨fun none => ?_, fun started i source key old => ?_, noted.quiet⟩
    · rw [(noted.fresh none).1] at here
      cases here
    · have before := noted.noted started i source key old
      rw [here] at before
      rcases before with already | awaits
      · exact .inl already
      · cases baseline with
        | false => exact awaits.elim
        | true =>
          rcases awaits with listed | later
          · rcases List.mem_cons.mp listed with rfl | rest
            · exact .inl there
            · exact .inr (.inl rest)
          · exact .inr (.inr later)
  | @notes delivery deliveries sources here =>
    refine ⟨fun none => ?_, fun started i source key old => ?_, noted.quiet⟩
    · rw [(noted.fresh none).1] at here
      cases here
    · have before := noted.noted started i source key old
      rw [here] at before
      rcases before with already | listed | later
      · exact .inl (List.mem_cons_of_mem _ already)
      · rcases List.mem_cons.mp listed with rfl | rest
        · exact .inl List.mem_cons_self
        · exact .inr (.inl rest)
      · exact .inr (.inr later)
  | @posts delivery deliveries sources answer here untried =>
    have same := deliver_started delivery answer c.listener
    -- nothing is awaited any more where something is posted
    have all : c.listener.started = true → ∀ i ∈ options.sources, ∀ key ∈ c.atStart i,
        key ∈ c.listener.delivered := by
      intro started i source key old
      refine (noted.noted started i source key old).resolve_right fun awaits => ?_
      rw [here] at awaits
      exact awaits
    refine ⟨fun none => ?_, fun started i source key old => ?_, fun started i source key old => ?_⟩
    · rw [(noted.fresh (same.symm.trans none)).1] at here
      cases here
    · exact .inl (deliver_delivered _ _ _ (all (same.symm.trans started) i source key old))
    · intro post member
      rcases List.mem_append.mp member with earlier | new
      · exact noted.quiet (same.symm.trans started) i source key old post earlier
      · obtain rfl := List.mem_singleton.mp new
        rintro rfl
        exact untried (all (same.symm.trans started) i source _ old)

/-! ## Main results -/

/-- What holds of everything that was posted, whatever was answered. -/
structure Bounded (c : Console ι) : Prop where
  attempts : ∀ key, tries c.posts key ≤ MAX_DELIVERY_ATTEMPTS
  answered : ∀ post ∈ c.posts, post.result = .delivered ↔ post.answer.ok = true
  ended : c.posts.Pairwise fun earlier later =>
    earlier.delivery.key = later.delivery.key → earlier.result = .willRetry

/-- Old events stay quiet; a key is accepted at most once and tried at most so often; and after it
was accepted or given up it is not forwarded again. -/
structure ForwardsOnce (options : ListenerOptions ι) (c : Console ι) : Prop where
  old : ∀ i ∈ options.sources, ∀ key ∈ c.atStart i, ∀ post ∈ c.posts, post.delivery.key ≠ key
  accepted : ∀ key, (c.posts.filter fun post =>
    post.delivery.key = key && post.answer.accepted).length ≤ 1
  attempts : ∀ key, tries c.posts key ≤ MAX_DELIVERY_ATTEMPTS
  ended : c.posts.Pairwise fun earlier later => earlier.delivery.key = later.delivery.key →
    earlier.answer.accepted = false ∧ earlier.result ≠ .givenUp

theorem length_filter_le_one {α : Type} {p : α → Bool} {xs : List α}
    (apart : xs.Pairwise fun x y => ¬ (p x = true ∧ p y = true)) : (xs.filter p).length ≤ 1 := by
  induction xs with
  | nil => exact Nat.zero_le _
  | cons x xs ih =>
    obtain ⟨first, rest⟩ := List.pairwise_cons.mp apart
    by_cases holds : p x = true
    · have none : xs.filter p = [] :=
        List.filter_eq_nil_iff.mpr fun y member also => first y member ⟨holds, also⟩
      rw [List.filter_cons_of_pos holds, none]
      exact Nat.le_refl 1
    · rw [List.filter_cons_of_neg holds]
      exact ih rest

/-- FinStack has accepted what it said it has. -/
def Answered (c : Console ι) : Prop := ∀ post ∈ c.posts, post.answer.accepted = post.answer.ok

omit [DecidableEq ι] in
theorem accepted_eq_ok {answer : Answer} (known : ∀ message, answer ≠ .lost message true) :
    answer.accepted = answer.ok := by
  cases answer with
  | response status text => rfl
  | lost message accepted =>
    cases accepted with
    | false => rfl
    | true => exact absurd rfl (known message)

theorem Answered.effect (answered : c.Answered) {action : Action ι} (admits : Undisturbed action c)
    (effect : Effect options c action c') : c'.Answered := by
  cases effect with
  | @posts delivery deliveries sources answer here untried =>
    intro post member
    rcases List.mem_append.mp member with earlier | new
    · exact answered post earlier
    · obtain rfl := List.mem_singleton.mp new
      refine accepted_eq_ok fun message same => ?_
      dsimp only at same
      rw [same] at admits
      cases admits
  | happens | ticks | lists | fails | ends | turns | skips | notes => exact answered

/-- Tries are bounded and end with a delivery in every run. Where only sources that had nothing fail
in the first tick, and no answer is lost after FinStack has accepted, nothing old is forwarded and
nothing is accepted twice. -/
theorem forwards_once_of_undisturbed (options : ListenerOptions ι) (noReplay : options.replay = false)
    (events : ι → List Delivery) :
    (∀ c, Reaches options Schedule.Any (start events) c → c.Bounded) ∧
      ∀ c, Reaches options Undisturbed (start events) c → c.ForwardsOnce options := by
  have counted : ∀ {Admits : Action ι → Console ι → Prop} (c : Console ι),
      Reaches options Admits (start events) c → Counted c.listener c.posts := by
    intro Admits c run
    refine run.invariant (fun c => Counted c.listener c.posts)
      (fun _ _ _ counted _ stepped => counted_effect counted (effect_of_step stepped)) ?_
    exact ⟨fun _ _ => ⟨rfl, Nat.zero_lt_succ _⟩, fun _ => Nat.zero_le _,
      fun _ none => (nomatch none), fun _ none => (nomatch none), .nil⟩
  refine ⟨fun c run => ?_, fun c run => ?_⟩
  · have tried := counted c run
    exact ⟨tried.bounded, tried.delivered, tried.ordered⟩
  · have tried := counted c run
    have noted : Noted options c := by
      refine run.invariant (Noted options)
        (fun _ _ _ noted admits stepped => noted.effect noReplay admits (effect_of_step stepped)) ?_
      exact ⟨fun _ => ⟨rfl, rfl⟩, fun none => (nomatch none), fun none => (nomatch none)⟩
    have answered : c.Answered := by
      refine run.invariant Answered
        (fun _ _ _ answered admits stepped => answered.effect admits (effect_of_step stepped)) ?_
      exact fun _ none => by cases none
    have ended : c.posts.Pairwise fun earlier later =>
        earlier.delivery.key = later.delivery.key →
          earlier.answer.accepted = false ∧ earlier.result ≠ .givenUp := by
      refine tried.ordered.imp_of_mem ?_
      intro earlier later member _ retried same
      have again := retried same
      refine ⟨?_, by rw [again]; decide⟩
      rw [answered earlier member, Bool.eq_false_iff]
      intro ok
      rw [(tried.delivered earlier member).mpr ok] at again
      cases again
    refine ⟨?_, fun key => length_filter_le_one ?_, tried.bounded, ended⟩
    · cases started : c.listener.started with
      | false =>
        intro i _ key _ post member
        rw [(noted.fresh started).2] at member
        cases member
      | true => exact noted.quiet started
    · refine ended.imp ?_
      intro earlier later once both
      simp only [Bool.and_eq_true, decide_eq_true_eq] at both
      obtain ⟨⟨key_earlier, accepted⟩, key_later, -⟩ := both
      rw [(once (key_earlier.trans key_later.symm)).1] at accepted
      cases accepted

/-! ## A source that fails at first -/

def paid : Delivery := ⟨"paystack:charge:1:success", "paystack", "charge.success", "trx_1", "{}", []⟩

def paystackOnly : ListenerOptions Unit := ⟨[()], fun _ => "paystack", "http://localhost:3000", false⟩

/-- An old event and a new one that is refused once: only the new one is forwarded, twice. -/
theorem forwards_once_after_retry : ∃ c, Reaches paystackOnly Undisturbed (start fun _ => [paid]) c ∧
    c.ForwardsOnce paystackOnly ∧ tries c.posts "paystack:charge:2:success" = 2 := by
  let new : Delivery := { paid with key := "paystack:charge:2:success" }
  have ran : (Schedule.run (step paystackOnly) Undisturbed [.tick, .poll none, .advance, .advance,
      .advance, .happen () new, .tick, .poll none, .advance, .post (.response 503 (.inl "")), .advance,
      .advance, .tick, .poll none, .advance, .post (.response 200 (.inl ""))]
      (start fun _ => [paid])).map
        (fun c => decide (tries c.posts "paystack:charge:2:success" = 2)) = some true := by
    decide +kernel
  obtain ⟨c, ran, twice⟩ := Option.map_eq_some_iff.mp ran
  have run := Schedule.reaches_of_run ran
  exact ⟨c, run, (forwards_once_of_undisturbed paystackOnly rfl fun _ => [paid]).2 c run,
    of_decide_eq_true twice⟩

/-- The first poll of the source fails; the next one forwards what was there all along. -/
theorem existing_forwarded_after_failed_poll :
    ∃ c, Reaches paystackOnly Schedule.Any (start fun _ => [paid]) c ∧
      ¬ c.ForwardsOnce paystackOnly := by
  have ran : (Schedule.run (step paystackOnly) Schedule.Any [.tick,
      .poll (some "HTTP 503 from api.paystack.co: "), .advance, .tick, .poll none,
      .post (.response 200 (.inl ""))] (start fun _ => [paid])).map
        (fun c => decide (c.atStart () = [paid.key] ∧ c.posts.map (·.delivery.key) = [paid.key])) =
          some true := by
    decide +kernel
  obtain ⟨c, ran, facts⟩ := Option.map_eq_some_iff.mp ran
  obtain ⟨old, posted⟩ := of_decide_eq_true facts
  refine ⟨c, Schedule.reaches_of_run ran, fun once => ?_⟩
  have there : paid.key ∈ c.posts.map (·.delivery.key) := by
    rw [posted]
    exact List.mem_singleton_self _
  obtain ⟨post, member, same⟩ := List.mem_map.mp there
  exact once.old () (List.mem_singleton_self _) paid.key (old ▸ List.mem_singleton_self _) post member same

end Console

end Finstack.Cli
