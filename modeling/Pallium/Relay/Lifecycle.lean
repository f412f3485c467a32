import Pallium.Relay.Evolution

/-!
# The life of a delivery

In every reachable store a pending delivery has never been claimed, a claimed
one has a token, a lease and at least one attempt, and exactly the delivered
ones have a delivery time.  A finished delivery keeps its row for ever, and the
attempts of a delivery grow by one at each claim, which installs a token that no
delivery has held before.
-/

namespace Pallium.Relay

open Pallium.Run

/-- Delivered, expired or suppressed. -/
def RelayDelivery.Finished (delivery : RelayDelivery) : Prop :=
  delivery.state = .delivered ∨ delivery.state = .expired ∨ delivery.state = .suppressed

structure RelayDelivery.WellFormed (delivery : RelayDelivery) : Prop where
  pending : delivery.state = .pending → delivery.attempts = 0 ∧ delivery.claimToken = none ∧
    delivery.leaseExpiresAt = none ∧ delivery.claimedAt = none
  claimed : delivery.state = .claimed → delivery.claimToken.isSome ∧
    delivery.leaseExpiresAt.isSome ∧ delivery.claimedAt.isSome ∧ 1 ≤ delivery.attempts
  delivered : delivery.deliveredAt.isSome ↔ delivery.state = .delivered

section Steps

variable {host : Host} {now : ℤ} {before after : RelayStore} {delivery changed : RelayDelivery}

theorem Newborn.wellFormed (hnewborn : Newborn delivery) : delivery.WellFormed := by
  obtain ⟨target, hfresh | hexpired⟩ := hnewborn
  · rw [hfresh]
    exact ⟨fun _ => ⟨rfl, rfl, rfl, rfl⟩, nofun, by simp [RelayDelivery.fresh]⟩
  · rw [hexpired]
    exact ⟨nofun, nofun,
      by simp [RelayDelivery.fresh, RelayDelivery.markExpired]⟩

theorem claimable_iff : claimable now delivery ↔
    delivery.state = .pending ∨ delivery.state = .claimed ∧
      ∃ lease, delivery.leaseExpiresAt = some lease ∧ lease ≤ now := by
  simp [claimable, Option.any_eq_true]

theorem claimRunOut_iff : claimRunOut now delivery ↔
    delivery.state = .claimed ∧ ∃ lease, delivery.leaseExpiresAt = some lease ∧ lease ≤ now := by
  simp [claimRunOut, Option.any_eq_true]

theorem RelayDelivery.WellFormed.deliveredAt_eq_none (hwellFormed : delivery.WellFormed)
    (hstate : delivery.state ≠ .delivered) : delivery.deliveredAt = none := by
  rw [← Option.not_isSome_iff_eq_none, hwellFormed.delivered]
  exact hstate

variable (hchange : DeliveryChange host before after now delivery changed)
include hchange

theorem DeliveryChange.wellFormed (hwellFormed : delivery.WellFormed) : changed.WellFormed := by
  cases hchange with
  | same => exact hwellFormed
  | expired hdue =>
    have hopen := (RelayStore.due_iff.mp hdue).1
    have hnone : delivery.deliveredAt = none := by
      refine hwellFormed.deliveredAt_eq_none fun hstate => ?_
      rcases hopen with hopen | hopen <;> rw [hstate] at hopen <;> cases hopen
    exact ⟨nofun, nofun,
      by simp [RelayDelivery.markExpired, hnone]⟩
  | claimed hclaimable =>
    have hnone : delivery.deliveredAt = none := by
      refine hwellFormed.deliveredAt_eq_none fun hstate => ?_
      rcases claimable_iff.mp hclaimable with hopen | ⟨hopen, -⟩ <;>
        rw [hstate] at hopen <;> cases hopen
    exact ⟨nofun, fun _ => ⟨rfl, rfl, rfl, Nat.le_add_left 1 _⟩,
      by simp [RelayDelivery.claim, hnone]⟩
  | delivered hstate =>
    exact ⟨nofun, nofun,
      by simp [RelayDelivery.markDelivered]⟩
  | @suppressed clearClaim hopen =>
    have hnone : delivery.deliveredAt = none := by
      refine hwellFormed.deliveredAt_eq_none fun hstate => ?_
      rcases hopen with ⟨hopen, -⟩ | ⟨hopen, -⟩
      · rw [hstate] at hopen
        cases hopen
      · rw [claimRunOut_iff, hstate] at hopen
        cases hopen.1
    cases clearClaim with
    | false =>
      exact ⟨nofun, nofun,
        by simp [RelayDelivery.suppress, hnone]⟩
    | true =>
      exact ⟨nofun, nofun,
        by simp [RelayDelivery.suppress, hnone]⟩
  | adopted hpending =>
    exact ⟨hwellFormed.pending, hwellFormed.claimed, hwellFormed.delivered⟩

theorem DeliveryChange.of_finished (hfinished : delivery.Finished) : changed = delivery := by
  have hopen : delivery.state ≠ .pending ∧ delivery.state ≠ .claimed := by
    rcases hfinished with hstate | hstate | hstate <;> rw [hstate] <;> exact ⟨nofun, nofun⟩
  cases hchange with
  | same => rfl
  | expired hdue =>
    rcases (RelayStore.due_iff.mp hdue).1 with hstate | hstate
    · exact absurd hstate hopen.1
    · exact absurd hstate hopen.2
  | claimed hclaimable =>
    rcases claimable_iff.mp hclaimable with hstate | ⟨hstate, -⟩
    · exact absurd hstate hopen.1
    · exact absurd hstate hopen.2
  | delivered hstate => exact absurd hstate hopen.2
  | suppressed hsuppressed =>
    rcases hsuppressed with ⟨hstate, -⟩ | ⟨hrunOut, -⟩
    · exact absurd hstate hopen.1
    · exact absurd (claimRunOut_iff.mp hrunOut).1 hopen.2
  | adopted hpending => exact absurd hpending hopen.1

/-- An operation that does not claim the delivery leaves its attempts and the
time of its claim, and at most clears its token. -/
def Unclaimed (delivery changed : RelayDelivery) : Prop :=
  changed.attempts = delivery.attempts ∧ changed.claimedAt = delivery.claimedAt ∧
    (changed.claimToken = delivery.claimToken ∨ changed.claimToken = none)

theorem DeliveryChange.unclaimed_or_claimed :
    Unclaimed delivery changed ∨
      changed.attempts = delivery.attempts + 1 ∧ changed.state = .claimed ∧
        ∃ draw, before.drawn ≤ draw ∧ draw < after.drawn ∧
          changed.claimToken = some (claimTokenOf host draw) := by
  cases hchange with
  | expired => exact Or.inl ⟨rfl, rfl, Or.inr rfl⟩
  | @claimed _ draw _ _ _ _ hdraw hlast => exact Or.inr ⟨rfl, rfl, draw, hdraw, hlast, rfl⟩
  | @suppressed clearClaim =>
    cases clearClaim with
    | false => exact Or.inl ⟨rfl, rfl, Or.inl rfl⟩
    | true => exact Or.inl ⟨rfl, rfl, Or.inr rfl⟩
  | _ => exact Or.inl ⟨rfl, rfl, Or.inl rfl⟩

end Steps

/-- Every delivery is well formed and every token was made from a draw. -/
structure StoreWellFormed (host : Host) (store : RelayStore) : Prop where
  deliveries : ∀ deliveryId delivery, store.deliveries.get deliveryId = some delivery →
    delivery.WellFormed
  tokens : ∀ deliveryId delivery token, store.deliveries.get deliveryId = some delivery →
    delivery.claimToken = some token → ∃ draw < store.drawn, token = claimTokenOf host draw

theorem StoreWellFormed.empty (host : Host) : StoreWellFormed host RelayStore.empty where
  deliveries _ _ hget := nomatch hget
  tokens _ _ _ hget := nomatch hget

theorem Evolves.storeWellFormed {host : Host} {now : ℤ} {writes : Option String}
    {before after : RelayStore} (hevolves : Evolves host now writes before after)
    (hwellFormed : StoreWellFormed host before) : StoreWellFormed host after where
  deliveries deliveryId changed hget := by
    cases hbefore : before.deliveries.get deliveryId with
    | none => exact (hevolves.born deliveryId changed hbefore hget).wellFormed
    | some delivery =>
      obtain ⟨other, hother, hchange⟩ := hevolves.kept deliveryId delivery hbefore
      obtain rfl := Option.eq_some_unique hother hget
      exact hchange.wellFormed (hwellFormed.deliveries deliveryId delivery hbefore)
  tokens deliveryId changed token hget htoken := by
    cases hbefore : before.deliveries.get deliveryId with
    | none =>
      obtain ⟨target, hfresh | hexpired⟩ := hevolves.born deliveryId changed hbefore hget
      · rw [hfresh] at htoken
        cases htoken
      · rw [hexpired] at htoken
        cases htoken
    | some delivery =>
      obtain ⟨other, hother, hchange⟩ := hevolves.kept deliveryId delivery hbefore
      obtain rfl := Option.eq_some_unique hother hget
      rcases hchange.unclaimed_or_claimed with ⟨-, -, hkept | hcleared⟩ |
        ⟨-, -, draw, -, hlast, hclaimed⟩
      · rw [hkept] at htoken
        obtain ⟨draw, hdraw, hmade⟩ := hwellFormed.tokens deliveryId delivery token hbefore htoken
        exact ⟨draw, hdraw.trans_le hevolves.drawn, hmade⟩
      · rw [hcleared] at htoken
        cases htoken
      · rw [hclaimed] at htoken
        exact ⟨draw, hlast, (Option.some.inj htoken).symm⟩

section Runs

variable {host : Host}

/-- The store after a run of the service from the empty database. -/
def reached (host : Host) (ops : List RelayOp) : RelayStore :=
  run (RelayOp.step host) RelayStore.empty ops

theorem reached_snoc (ops : List RelayOp) (op : RelayOp) :
    reached host (ops ++ [op]) = op.step host (reached host ops) := by
  rw [reached, run_append]
  rfl

theorem reached_wellFormed (host : Host) (ops : List RelayOp) :
    StoreWellFormed host (reached host ops) :=
  run_invariant (StoreWellFormed.empty host)
    (fun store op hstore => (op.step_evolves host store).storeWellFormed hstore) ops

theorem drawn_le_run (store : RelayStore) (ops : List RelayOp) :
    store.drawn ≤ (run (RelayOp.step host) store ops).drawn :=
  run_related (fun first second : RelayStore => first.drawn ≤ second.drawn)
    (fun store => le_refl store.drawn)
    (fun _ _ _ hfirst hsecond => hfirst.trans hsecond)
    (fun store op => (op.step_evolves host store).drawn) store ops

theorem delivery_run (host : Host) (ops : List RelayOp) {store : RelayStore} {deliveryId : String}
    {delivery : RelayDelivery} (hget : store.deliveries.get deliveryId = some delivery) :
    ∃ final, (run (RelayOp.step host) store ops).deliveries.get deliveryId =
        some final ∧ delivery.attempts ≤ final.attempts ∧
      (delivery.Finished → final = delivery) := by
  induction ops generalizing store delivery with
  | nil => exact ⟨delivery, hget, le_rfl, fun _ => rfl⟩
  | cons op rest ih =>
    obtain ⟨changed, hchanged, hchange⟩ :=
      (op.step_evolves host store).kept deliveryId delivery hget
    obtain ⟨final, hfinal, hattempts, hkept⟩ := ih hchanged
    refine ⟨final, hfinal, ?_, fun hfinished => ?_⟩
    · refine le_trans ?_ hattempts
      rcases hchange.unclaimed_or_claimed with ⟨hsame, -⟩ | ⟨hmore, -⟩
      · exact hsame.ge
      · rw [hmore]
        exact Nat.le_succ _
    · obtain rfl := hchange.of_finished hfinished
      exact hkept hfinished

/-- The first draws of random identifiers are pairwise distinct. -/
def Host.DistinctDraws (host : Host) (count : ℕ) : Prop :=
  ∀ first < count, ∀ second < count, host.uuid4Hex first = host.uuid4Hex second → first = second

instance (host : Host) (count : ℕ) : Decidable (host.DistinctDraws count) :=
  inferInstanceAs (Decidable (∀ _ < count, ∀ _ < count, _ → _))

/-- Some delivery holds the token in some state of the run. -/
def Held (host : Host) (ops : List RelayOp) (token : String) : Prop :=
  ∃ earlier, earlier <+: ops ∧ ∃ deliveryId delivery,
    (reached host earlier).deliveries.get deliveryId = some delivery ∧
      delivery.claimToken = some token

theorem not_held {ops : List RelayOp} {draw count : ℕ} (hdistinct : host.DistinctDraws count)
    (hdraw : (reached host ops).drawn ≤ draw) (hlast : draw < count) :
    ¬ Held host ops (claimTokenOf host draw) := by
  rintro ⟨earlier, ⟨rest, rfl⟩, deliveryId, delivery, hget, htoken⟩
  obtain ⟨made, hmade, hequal⟩ :=
    (reached_wellFormed host earlier).tokens deliveryId delivery _ hget htoken
  have hearlier : (reached host earlier).drawn ≤ (reached host (earlier ++ rest)).drawn := by
    rw [reached, reached, run_append]
    exact drawn_le_run _ rest
  have hbefore : made < draw := hmade.trans_le (hearlier.trans hdraw)
  have huuid : host.uuid4Hex draw = host.uuid4Hex made := by
    have hlists := congrArg String.toList hequal
    simp only [claimTokenOf, String.toList_append, List.append_cancel_left_eq] at hlists
    exact String.toList_inj.mp hlists
  exact hbefore.ne' (hdistinct draw hlast made (hbefore.trans hlast) huuid)

/-- The lifecycle of a delivery in every run.  In each state its row is well
formed; the next operation either claims it, installing a token that no
delivery has held, or leaves its attempts; and whatever follows, its attempts do
not decrease, and once it is finished its state and its delivery time remain. -/
theorem delivery_lifecycle {ops : List RelayOp} {op : RelayOp} {deliveryId : String}
    {delivery : RelayDelivery}
    (hdistinct : host.DistinctDraws (reached host (ops ++ [op])).drawn)
    (hget : (reached host ops).deliveries.get deliveryId = some delivery) :
    delivery.WellFormed ∧
      (∃ changed, (reached host (ops ++ [op])).deliveries.get deliveryId = some changed ∧
        (Unclaimed delivery changed ∨
          changed.attempts = delivery.attempts + 1 ∧ changed.state = .claimed ∧
            ∃ token, changed.claimToken = some token ∧ ¬ Held host ops token)) ∧
      ∀ later, ∃ final, (reached host (ops ++ later)).deliveries.get deliveryId = some final ∧
        delivery.attempts ≤ final.attempts ∧
        (delivery.Finished →
          final.state = delivery.state ∧ final.deliveredAt = delivery.deliveredAt) := by
  refine ⟨(reached_wellFormed host ops).deliveries deliveryId delivery hget, ?_, fun later => ?_⟩
  · rw [reached_snoc] at hdistinct ⊢
    obtain ⟨changed, hchanged, hchange⟩ :=
      (op.step_evolves host (reached host ops)).kept deliveryId delivery hget
    refine ⟨changed, hchanged, ?_⟩
    rcases hchange.unclaimed_or_claimed with hunclaimed |
      ⟨hattempts, hstate, draw, hdraw, hlast, htoken⟩
    · exact Or.inl hunclaimed
    · exact Or.inr ⟨hattempts, hstate, _, htoken, not_held hdistinct hdraw hlast⟩
  · rw [reached, run_append]
    obtain ⟨final, hfinal, hattempts, hkept⟩ := delivery_run host later hget
    refine ⟨final, hfinal, hattempts, fun hfinished => ?_⟩
    rw [hkept hfinished]
    exact ⟨rfl, rfl⟩

end Runs

section Example

/-- A host with the digests of the one token and the one delivery of the examples. -/
def exampleHost : Host where
  uuid4Hex draw := "0000000000004000800000000000000" ++ toString draw
  sha256Hex text :=
    if text = "relay-claim-00000000000040008000000000000003" then
      "a9c62483ba1e4ee9ad0f0afa7c66f1cefb29ad906ca63cb39e60d1ee1faf082c"
    else if text = "relay-delivery-00000000000040008000000000000002" then
      "5d6f9601bd7f3064e06ef284c96eb097f744b847d8fcc4b2c4671710ce56ebd6"
    else ""
  manifestDigest _ := ""

/-- A turn without budgets that registers its session. -/
def exampleTurn (runtime : Runtime) (sessionRef : String) : TurnRequest where
  runtime := runtime
  sessionRef := sessionRef
  containerRef := "repo:a"
  title := none
  maxChars := 0
  maxMessages := 3
  leaseSeconds := relayClaimLeaseSeconds
  exactDeliveryId := none
  claimExpiresAtMs := none
  codexWakeEndpointId := none
  codexWakeGeneration := none
  openCodeWake := none
  maxResponseChars := 0
  registerSession := true
  previousContainerRef := none
  previousEndpointId := none
  previousScopeGeneration := none

/-- A message from the first session to the second. -/
def exampleSend (messageId : String) : SendRequest where
  messageId := messageId
  senderRuntime := .codex
  senderSessionRef := "sender"
  recipient := "relay-session-00000000000040008000000000000001"
  recipientRuntime := none
  recipientKind := .endpoint
  recipientValue := "relay-session-00000000000040008000000000000001"
  payload := "question"
  redacted := false
  containerRef := "repo:a"
  expiresInSeconds := some 3600
  inReplyTo := none
  expirySupplied := true

def exampleClock : ClaimClock := ⟨0, fun _ => 0⟩

/-- Two sessions register and the first sends a message to the second. -/
def exampleSent : List RelayOp :=
  [.turn (exampleTurn .codex "sender") exampleClock 0,
    .turn (exampleTurn .claudeCode "recipient") exampleClock 0, .send (exampleSend "message") 0]

/-- The second session claims its delivery. -/
def exampleClaim : RelayOp := .turn (exampleTurn .claudeCode "recipient") exampleClock 1000000

def exampleClaimed : List RelayOp := exampleSent ++ [exampleClaim]

def exampleDeliveryId : String := "relay-delivery-00000000000040008000000000000002"

/-- The claim of a delivery that was written before. -/
theorem delivery_lifecycle_claim :
    ∃ delivery, (reached exampleHost exampleSent).deliveries.get exampleDeliveryId =
        some delivery ∧ delivery.WellFormed ∧
      ∃ changed, (reached exampleHost (exampleSent ++ [exampleClaim])).deliveries.get
          exampleDeliveryId = some changed ∧
        (Unclaimed delivery changed ∨
          changed.attempts = delivery.attempts + 1 ∧ changed.state = .claimed ∧
            ∃ token, changed.claimToken = some token ∧ ¬ Held exampleHost exampleSent token) := by
  have hstored : ((reached exampleHost exampleSent).deliveries.get exampleDeliveryId).isSome := by
    decide
  obtain ⟨delivery, hget⟩ := Option.isSome_iff_exists.mp hstored
  have hdistinct : exampleHost.DistinctDraws
      (reached exampleHost (exampleSent ++ [exampleClaim])).drawn := by
    decide
  obtain ⟨hwellFormed, hnext, -⟩ := delivery_lifecycle hdistinct hget
  exact ⟨delivery, hget, hwellFormed, hnext⟩

end Example

end Pallium.Relay
