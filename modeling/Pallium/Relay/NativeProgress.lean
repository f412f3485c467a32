import Pallium.Core.Progress
import Pallium.Relay.NativeRuns
import Pallium.Relay.WakeRuns

/-!
# How the native wake ends

Once the assigned delivery is done, the assignment ends at the poll after the
terminal report of its run.  The report depends on the native history: it must still
show the input, with an idle record before the next user record.
-/

namespace Pallium.Relay

open Pallium.Run Pallium.Transaction Pallium.Calendar Pallium.Progress

section Continuations

/-- `POLL_MS`, in microseconds. -/
def pollInterval : ℤ := 2500 * 1000

/-- The session is idle: the last record of its history says so. -/
def SessionIdle (history : List NativeRecord) : Prop :=
  ∃ message, history.getLast? = some message ∧ message.type = .idle ∧ validInput message.id

/-- The operation is a request of a native bridge. -/
def RelayOp.Drives (op : RelayOp) : Prop :=
  ∃ operation request now, op = .openCodeWake operation request now

variable (host : Host) (plugin : Plugin) (start : NativeWorld) (endpoint : String × ℕ)
  (since : ℤ) (acts : ℕ → NativeAct)

/-- The world after the first acts. -/
def worldAt (time : ℕ) : NativeWorld := path (NativeWorld.step host plugin) start acts time

/-- From `since` on the owner polls at the interval of the plugin, all its calls
succeed, and the session becomes idle again and again.  Everyone else goes on as
they like, except that the bridges of others are refused while the owner holds the
wake. -/
structure Continues : Prop where
  owner : ∀ time, (worldAt host plugin start acts time).item.ownerId = start.item.ownerId ∧
    (worldAt host plugin start acts time).item.endpoint = some endpoint
  succeeds : ∀ time, (acts time).Succeeds plugin (worldAt host plugin start acts time)
  others : ∀ time op, acts time = .relay op → op.Validated ∧
    (op.Drives → OpRefused host (worldAt host plugin start acts time).store op)
  polls : ∃ schedule : ℕ → ℕ, StrictMono schedule ∧
    (∀ count, ∃ calls, acts (schedule count) = .poll calls ∧
      calls.poll.now = since + count * pollInterval) ∧
    ∀ time calls, acts time = .poll calls → ∃ count, time = schedule count
  returns : Recurs fun time => ∃ owned call, acts time = .advance owned call
  idle : Recurs fun time => SessionIdle (worldAt host plugin start acts time).history

end Continuations

section Steps

variable {host : Host} {plugin : Plugin} {start : NativeWorld} {endpoint : String × ℕ}
  {since : ℤ} {acts : ℕ → NativeAct} {wake : OpenCodeWake} {time : ℕ}

theorem remember_endpoint {item next : PluginItem} {session : SessionView}
    (hremember : plugin.remember item session = some next) :
    next.endpoint = some (session.endpointId, session.scopeGeneration) ∧
      (item.endpoint = next.endpoint ∨ item.run = none → next.run = item.run) := by
  unfold Plugin.remember at hremember
  split at hremember
  · simp only at hremember
    split at hremember
    · next hother =>
        cases hremember
        exact ⟨rfl, fun hsame => hsame.elim (fun hsame => absurd hsame hother.2) Eq.symm⟩
    · cases hremember
      exact ⟨rfl, fun _ => rfl⟩
  · cases hremember

/-- A restored session is the one that the plugin goes on with. -/
theorem restored {world : NativeWorld} {session : SessionView} {owned : Bool} {call : PluginCall}
    (hknown : world.item.endpoint = some endpoint)
    (hafter : (world.step host plugin (.restore session owned call)).item.endpoint =
      some endpoint) (hrow : world.row endpoint = some wake) :
    (world.step host plugin (.restore session owned call)).item.run = world.item.run ∧
      ∃ next, (world.step host plugin (.restore session owned call)).row endpoint = some next ∧
        Onward wake next := by
  simp only [NativeWorld.step] at hafter ⊢
  cases hremember : plugin.remember world.item session with
  | none => exact ⟨rfl, wake, hrow, Onward.refl wake⟩
  | some item =>
    rw [hremember] at hafter
    simp only at hafter ⊢
    obtain ⟨hendpoint, hrun⟩ := remember_endpoint hremember
    have hitem : ({ world with item := item } : NativeWorld).item.endpoint =
        some (session.endpointId, session.scopeGeneration) := hendpoint
    obtain ⟨polled, henrolled⟩ := @enroll_item plugin _ _ owned call hitem
    rw [henrolled] at hafter ⊢
    have hsame : item.endpoint = some endpoint := hafter
    exact ⟨hrun (Or.inl (hknown.trans hsame.symm)), enroll_onward owned call hsame hrow⟩

theorem Continues.onward (hcontinues : Continues host plugin start endpoint since acts)
    (hpoll : ∀ calls, acts time ≠ .poll calls)
    (hrow : (worldAt host plugin start acts time).row endpoint = some wake) :
    ∃ next, (worldAt host plugin start acts (time + 1)).row endpoint = some next ∧
      Onward wake next := by
  have hknown := (hcontinues.owner time).2
  have hafter := (hcontinues.owner (time + 1)).2
  change ((worldAt host plugin start acts time).step host plugin (acts time)).item.endpoint = _
    at hafter
  change ∃ next, ((worldAt host plugin start acts time).step host plugin (acts time)).row
    endpoint = some next ∧ Onward wake next
  cases hact : acts time with
  | relay op =>
    obtain ⟨hvalid, hrefused⟩ := hcontinues.others time op hact
    by_cases hdrives : op.Drives
    · refine ⟨wake, ?_, Onward.refl wake⟩
      simp only [NativeWorld.step, (hrefused hdrives).2]
      exact hrow
    · exact op.step_onward hvalid
        (fun operation request now hop => hdrives ⟨operation, request, now, hop⟩) hrow
  | record message => exact ⟨wake, hrow, Onward.refl wake⟩
  | compact lost => exact ⟨wake, hrow, Onward.refl wake⟩
  | restore session owned call =>
    rw [hact] at hafter
    exact (restored hknown hafter hrow).2
  | restart ownerId =>
    rw [hact] at hafter
    cases hafter
  | poll calls => exact absurd hact (hpoll calls)
  | advance owned call => exact advance_onward owned call hknown hrow

/-- Only the run's own next call and a poll that begins a run change what is under
way. -/
theorem Continues.run_kept (hcontinues : Continues host plugin start endpoint since acts)
    (hadvance : ∀ owned call, acts time ≠ .advance owned call)
    (hrow : (worldAt host plugin start acts time).row endpoint = some wake)
    (hrun : (worldAt host plugin start acts time).item.run.isSome ∨
      ∀ calls, acts time ≠ .poll calls) :
    (worldAt host plugin start acts (time + 1)).item.run =
      (worldAt host plugin start acts time).item.run := by
  have hknown := (hcontinues.owner time).2
  have hafter := (hcontinues.owner (time + 1)).2
  have hsucceeds := hcontinues.succeeds time
  change ((worldAt host plugin start acts time).step host plugin (acts time)).item.endpoint = _
    at hafter
  change ((worldAt host plugin start acts time).step host plugin (acts time)).item.run = _
  cases hact : acts time with
  | restore session owned call =>
    rw [hact] at hafter
    exact (restored hknown hafter hrow).1
  | restart ownerId =>
    rw [hact] at hafter
    cases hafter
  | poll calls =>
    rw [hact] at hsucceeds
    obtain ⟨session, held, next, response, -, hstep⟩ := @step_poll host _ _ _ _ hknown hsucceeds
    have hbusy := hrun.resolve_right fun hnone => hnone calls hact
    rw [hstep]
    unfold Plugin.startWake
    cases next.view with
    | none => rfl
    | some view =>
      simp only
      rw [if_neg]
      rw [Option.isNone_eq_false_iff.mpr hbusy]
      simp
  | advance owned call => exact absurd hact (hadvance owned call)
  | _ => rfl

end Steps

section Progress

variable {host : Host} {plugin : Plugin} {start : NativeWorld} {endpoint : String × ℕ}
  {since : ℤ} {acts : ℕ → NativeAct} {origin wake : OpenCodeWake} {time : ℕ}
  {calls : Plugin.PollCalls} {deliveryId : String}

/-- The row is at the attempt of `origin`, without a terminal record. -/
def WakeOpen (origin : OpenCodeWake) (row : Option OpenCodeWake) : Prop :=
  ∃ wake, row = some wake ∧ wake.deliveryId = origin.deliveryId ∧
    wake.generation = origin.generation ∧ wake.terminal = false

/-- The row has no delivery, or that of `origin` with a terminal record. -/
def WakeShut (origin : OpenCodeWake) (row : Option OpenCodeWake) : Prop :=
  ∃ wake, row = some wake ∧ (wake.deliveryId = none ∨
    wake.deliveryId = origin.deliveryId ∧ wake.terminal = true)

theorem WakeOpen.onward {next : OpenCodeWake} (hopen : WakeOpen origin (some wake))
    (honward : Onward wake next) :
    WakeOpen origin (some next) ∨ WakeShut origin (some next) := by
  obtain ⟨found, hfound, hdelivery, hgeneration, -⟩ := hopen
  cases hfound
  rcases honward with hnone | ⟨hsame, hattempt, -⟩
  · exact Or.inr ⟨next, rfl, Or.inl hnone⟩
  · cases hterminal : next.terminal with
    | false =>
      exact Or.inl ⟨next, rfl, hsame.trans hdelivery, hattempt.trans hgeneration, hterminal⟩
    | true => exact Or.inr ⟨next, rfl, Or.inr ⟨hsame.trans hdelivery, hterminal⟩⟩

theorem WakeShut.onward {next : OpenCodeWake} (hshut : WakeShut origin (some wake))
    (honward : Onward wake next) : WakeShut origin (some next) := by
  obtain ⟨found, hfound, hcases⟩ := hshut
  cases hfound
  refine ⟨next, rfl, ?_⟩
  rcases honward with hnone | ⟨hsame, -, hterminal⟩
  · exact Or.inl hnone
  · rcases hcases with hnone | ⟨hdelivery, hended⟩
    · exact Or.inl (hsame.trans hnone)
    · exact Or.inr ⟨hsame.trans hdelivery, hterminal hended⟩

def rowAt (host : Host) (plugin : Plugin) (start : NativeWorld) (endpoint : String × ℕ)
    (acts : ℕ → NativeAct) (time : ℕ) : Option OpenCodeWake :=
  (worldAt host plugin start acts time).row endpoint

theorem Continues.open_step (hcontinues : Continues host plugin start endpoint since acts)
    (hassigned : origin.deliveryId.isSome)
    (hopen : WakeOpen origin (rowAt host plugin start endpoint acts time)) :
    WakeOpen origin (rowAt host plugin start endpoint acts (time + 1)) ∨
      WakeShut origin (rowAt host plugin start endpoint acts (time + 1)) := by
  obtain ⟨wake, hrow, hdelivery, hgeneration, hterminal⟩ := hopen
  by_cases hpoll : ∃ calls, acts time = .poll calls
  · obtain ⟨calls, hact⟩ := hpoll
    have hsucceeds := hcontinues.succeeds time
    rw [hact] at hsucceeds
    obtain ⟨session, held, next, response, haccepted, hstep⟩ :=
      @step_poll host _ _ _ _ (hcontinues.owner time).2 hsucceeds
    obtain rfl : held = some wake := haccepted.bound.wake.symm.trans hrow
    have hnext := haccepted.kept (by rw [hdelivery]; exact hassigned) hterminal
    refine Or.inl ⟨next, ?_, ?_⟩
    · change ((worldAt host plugin start acts time).step host plugin (acts time)).row endpoint = _
      rw [hact, hstep]
      exact haccepted.get
    · rw [hnext]
      exact ⟨hdelivery, hgeneration, hterminal⟩
  · obtain ⟨next, hnext, honward⟩ :=
      hcontinues.onward (fun calls hact => hpoll ⟨calls, hact⟩) hrow
    have hcases := WakeOpen.onward ⟨wake, rfl, hdelivery, hgeneration, hterminal⟩ honward
    unfold rowAt
    rw [hnext]
    exact hcases

/-- The view of the attempt of `origin`. -/
structure Views (origin : OpenCodeWake) (view : OpenCodeWakeView) : Prop where
  generation : view.generation = origin.generation
  deliveryId : some view.deliveryId = origin.deliveryId
  nativeInputId : view.nativeInputId = origin.nativeId

/-- The run of the attempt of `origin` has come to the stage. -/
def AtStage (origin : OpenCodeWake) (item : PluginItem) (stage : WakeStage) : Prop :=
  ∃ view, item.run = some (view, stage) ∧ Views origin view

/-- The history shows the input of the wake, with an idle record after it and before
the next user record. -/
def ShowsEnd (history : List NativeRecord) (view : OpenCodeWakeView) : Prop :=
  view.observed history ∧ ∃ before input between idle after,
    history = before ++ input :: (between ++ idle :: after) ∧ isInput view.nativeInputId input ∧
      (∀ message ∈ before, isInput view.nativeInputId message = false) ∧
      (∀ message ∈ between, message.type ≠ .user) ∧ idle.type = .idle ∧ validInput idle.id

theorem ShowsEnd.terminalAfter {history : List NativeRecord} {view : OpenCodeWakeView}
    (hshows : ShowsEnd history view) : ∃ id, terminalAfter history view.nativeInputId = some id := by
  obtain ⟨-, before, input, between, idle, after, rfl, hinput, hbefore, hbetween, hidle, hvalid⟩ :=
    hshows
  have hindex : (before ++ input :: (between ++ idle :: after)).findIdx?
      (isInput view.nativeInputId) = some before.length := by
    rw [List.findIdx?_append, List.findIdx?_eq_none_iff.mpr hbefore, List.findIdx?_cons, hinput]
    simp
  have hdrop : (before ++ input :: (between ++ idle :: after)).drop (before.length + 1) =
      between ++ idle :: after := by
    rw [← List.drop_drop, List.drop_left, List.drop_one, List.tail_cons]
  have hturn : ((between ++ idle :: after).takeWhile fun message => message.type != .user) =
      between ++ idle :: after.takeWhile fun message => message.type != .user := by
    rw [List.takeWhile_append_of_pos fun message hmessage => by
      simpa using hbetween message hmessage, List.takeWhile_cons, hidle]
    rfl
  unfold Relay.terminalAfter
  simp only [hindex, hdrop, hturn]
  cases hfound : (between ++ idle :: after.takeWhile fun message => message.type != .user).find?
      fun message => message.type == .idle && validInput message.id with
  | none =>
    have hnone := List.find?_eq_none.mp hfound idle
      (List.mem_append_right _ List.mem_cons_self)
    simp [hidle, hvalid] at hnone
  | some message => exact ⟨message.id, rfl⟩

/-- The calls that are still to come. -/
def WakeStage.left : WakeStage → ℕ
  | .reading => 6
  | .prompting => 5
  | .checking => 4
  | .admitting => 3
  | .waiting => 2
  | .correlating => 1
  | .reporting _ => 0

section Advance

variable {world : NativeWorld} {view : OpenCodeWakeView} {stage : WakeStage} {owned : Bool}
  {call : PluginCall}

theorem advance_left (hrun : world.item.run = some (view, stage))
    (hknown : world.item.endpoint = some endpoint) :
    (plugin.advance owned call world).item.run = none ∨ ∃ later,
      (plugin.advance owned call world).item.run = some (view, later) ∧ later.left < stage.left := by
  unfold Plugin.advance
  simp only [hrun, hknown]
  cases owned with
  | false => exact Or.inl rfl
  | true =>
    simp only [if_true]
    cases stage with
    | reading =>
      simp only
      split
      · exact Or.inr ⟨.checking, rfl, by decide⟩
      · split
        · exact Or.inr ⟨.prompting, rfl, by decide⟩
        · exact Or.inl rfl
    | prompting =>
      simp only
      split
      · exact Or.inr ⟨.checking, rfl, by decide⟩
      · exact Or.inl rfl
    | checking =>
      simp only
      split
      · exact Or.inr ⟨.admitting, rfl, by decide⟩
      · exact Or.inl rfl
    | admitting => exact Or.inr ⟨.waiting, rfl, by decide⟩
    | waiting =>
      simp only
      split
      · exact Or.inr ⟨.correlating, rfl, by decide⟩
      · exact Or.inl rfl
    | correlating =>
      simp only
      split
      · split
        · exact Or.inr ⟨_, rfl, Nat.zero_lt_one⟩
        · exact Or.inl rfl
      · exact Or.inl rfl
    | reporting terminalMessageId => exact Or.inl rfl

theorem advance_shown (hrun : world.item.run = some (view, stage))
    (hknown : world.item.endpoint = some endpoint) (hanswered : call.link = .answered)
    (hshows : ShowsEnd world.history view) (hstage : stage.left ≠ 0) :
    (plugin.advance true call world).item.run.isSome := by
  obtain ⟨terminalMessageId, hterminal⟩ := hshows.terminalAfter
  unfold Plugin.advance
  simp only [hrun, hknown, if_true, hanswered, beq_self_eq_true, Bool.true_and, hshows.1]
  cases stage with
  | correlating =>
    simp only [hterminal]
    rfl
  | reporting terminalMessageId => exact absurd rfl hstage
  | _ => rfl

/-- A report that is taken settles the attempt it speaks of. -/
theorem advance_reporting {terminalMessageId : String}
    (hrun : world.item.run = some (view, .reporting terminalMessageId))
    (hknown : world.item.endpoint = some endpoint) (hviews : Views origin view)
    (horigin : origin.endpointId = endpoint.1) (hopen : WakeOpen origin (world.row endpoint))
    (hsucceeds : (NativeAct.advance owned call).Succeeds plugin world) :
    WakeShut origin ((plugin.advance owned call world).row endpoint) := by
  obtain ⟨rfl, hanswered, htaken⟩ := hsucceeds
  obtain ⟨wake, hrow, hdelivery, hgeneration, hlive⟩ := hopen
  have hpending : plugin.pending world.item = some (.terminal,
      { plugin.fields world.item.ownerId endpoint view with
        terminalMessageId := some terminalMessageId }) := by
    unfold Plugin.pending
    rw [hrun, hknown]
  have hkey : wake.endpointId = endpoint.1 := Table.key_of_get hrow
  have hmatches : wake.matchesSnapshot
      { plugin.fields world.item.ownerId endpoint view with
        terminalMessageId := some terminalMessageId } := by
    have hnative : wake.nativeId = origin.nativeId := by
      rw [OpenCodeWake.nativeId, OpenCodeWake.nativeId, hkey, horigin, hgeneration]
    simp only [OpenCodeWake.matchesSnapshot, Plugin.fields, Bool.and_eq_true, beq_iff_eq]
    exact ⟨⟨by rw [hgeneration, hviews.generation], hdelivery.trans hviews.deliveryId.symm⟩,
      by rw [hnative, hviews.nativeInputId]⟩
  rcases htaken _ _ hpending with ⟨response, hok⟩ | hstale
  · obtain ⟨session, held, next, haccepted⟩ := relayOpenCodeWake_accepted hok
    obtain rfl : held = some wake := haccepted.bound.wake.symm.trans hrow
    refine ⟨next, ?_, Or.inr ?_⟩
    · unfold Plugin.advance wakeRequest
      simp only [hrun, hknown, if_true, hanswered]
      exact haccepted.get
    · have hoperates := haccepted.operates
      simp only [operateWake, bind_eq_ok, orRaise_eq_ok, require_eq_ok] at hoperates
      obtain ⟨found, hfound, -, -, hoperates⟩ := hoperates
      cases hfound
      rw [hlive] at hoperates
      simp only [Bool.false_eq_true, if_false, pure_eq_ok] at hoperates
      exact hoperates ▸ ⟨hdelivery, rfl⟩
  · exact absurd hstale (not_stale rfl hrow hmatches)

end Advance

section

variable (hcontinues : Continues host plugin start endpoint since acts)
include hcontinues

theorem Continues.polls_recur :
    Recurs fun time => ∃ calls, acts time = .poll calls := by
  obtain ⟨schedule, hmono, hpolls, -⟩ := hcontinues.polls
  intro time
  obtain ⟨calls, hact, -⟩ := hpolls time
  exact ⟨schedule time, hmono.id_le time, calls, hact⟩

theorem Continues.since_le
    {calls : Plugin.PollCalls} (hact : acts time = .poll calls) : since ≤ calls.poll.now := by
  obtain ⟨schedule, -, hpolls, hevery⟩ := hcontinues.polls
  obtain ⟨count, rfl⟩ := hevery time calls hact
  obtain ⟨other, hother, hnow⟩ := hpolls count
  obtain rfl := NativeAct.poll.inj (hact.symm.trans hother)
  rw [hnow, pollInterval]
  omega

/-- The calls that are left of the run that is under way. -/
def PluginItem.left (item : PluginItem) : ℕ := (item.run.map fun running => running.2.left).getD 0

/-- A run that lasts until its next call leads on, as every call leaves less of it. -/
theorem Continues.run_leads (hassigned : origin.deliveryId.isSome) {during after : ℕ → Prop}
    (hruns : ∀ time, during time → WakeOpen origin (rowAt host plugin start endpoint acts time) ∧
      (worldAt host plugin start acts time).item.run.isSome)
    (hlasts : ∀ time, during time →
      WakeOpen origin (rowAt host plugin start endpoint acts (time + 1)) →
      (worldAt host plugin start acts (time + 1)).item.run =
        (worldAt host plugin start acts time).item.run → during (time + 1))
    (hshut : ∀ time, WakeShut origin (rowAt host plugin start endpoint acts time) → after time)
    (hcalls : ∀ time owned call, during time → acts time = .advance owned call →
      worldAt host plugin start acts (time + 1) =
        plugin.advance owned call (worldAt host plugin start acts time) →
      during (time + 1) ∧ (worldAt host plugin start acts (time + 1)).item.left <
        (worldAt host plugin start acts time).item.left ∨ after (time + 1)) :
    LeadsTo during after := by
  have hevent : ∀ time, during time → (∃ owned call, acts time = .advance owned call) →
      during (time + 1) ∧ (worldAt host plugin start acts (time + 1)).item.left <
        (worldAt host plugin start acts time).item.left ∨ after (time + 1) := by
    rintro time hbefore ⟨owned, call, hact⟩
    refine hcalls time owned call hbefore hact ?_
    change (worldAt host plugin start acts time).step host plugin (acts time) = _
    rw [hact]
    rfl
  refine hcontinues.returns.leadsTo_of_rank
    (fun time => (worldAt host plugin start acts time).item.left) (fun time hbefore => ?_) hevent
  by_cases hact : ∃ owned call, acts time = .advance owned call
  · rcases hevent time hbefore hact with ⟨hkept, hless⟩ | hleft
    · exact Or.inl ⟨hkept, hless.le⟩
    · exact Or.inr hleft
  · obtain ⟨hopen, hbusy⟩ := hruns time hbefore
    rcases hcontinues.open_step hassigned hopen with hstill | hended
    · obtain ⟨wake, hrow, -⟩ := hopen
      have hsame := hcontinues.run_kept (fun owned call hother => hact ⟨owned, call, hother⟩)
        hrow (Or.inl hbusy)
      refine Or.inl ⟨hlasts time hbefore hstill hsame, ?_⟩
      rw [PluginItem.left, PluginItem.left, hsame]
    · exact Or.inr (hshut _ hended)

/-- The run of whatever attempt is under way comes to an end. -/
theorem Continues.run_ends (hassigned : origin.deliveryId.isSome) :
    LeadsTo (fun time => WakeOpen origin (rowAt host plugin start endpoint acts time))
      fun time => WakeOpen origin (rowAt host plugin start endpoint acts time) ∧
          (worldAt host plugin start acts time).item.run = none ∨
        WakeShut origin (rowAt host plugin start endpoint acts time) := by
  have hbusy : LeadsTo
      (fun time => WakeOpen origin (rowAt host plugin start endpoint acts time) ∧
        (worldAt host plugin start acts time).item.run.isSome)
      fun time => WakeOpen origin (rowAt host plugin start endpoint acts time) ∧
          (worldAt host plugin start acts time).item.run = none ∨
        WakeShut origin (rowAt host plugin start endpoint acts time) := by
    refine hcontinues.run_leads hassigned (fun _ hbefore => hbefore)
      (fun time hbefore hopen hsame => ⟨hopen, hsame ▸ hbefore.2⟩) (fun _ => Or.inr) ?_
    rintro time owned call ⟨hopen, hbusy⟩ - hnext
    rcases hcontinues.open_step hassigned hopen with hstill | hshut
    · obtain ⟨⟨view, stage⟩, hrun⟩ := Option.isSome_iff_exists.mp hbusy
      rcases @advance_left plugin endpoint _ view stage owned call hrun
        (hcontinues.owner time).2 with hended | ⟨later, hlater, hless⟩
      · exact Or.inr (Or.inl ⟨hstill, hnext ▸ hended⟩)
      · rw [← hnext] at hlater
        refine Or.inl ⟨⟨hstill, by rw [hlater]; rfl⟩, ?_⟩
        rw [PluginItem.left, PluginItem.left, hlater, hrun]
        exact hless
    · exact Or.inr (Or.inr hshut)
  intro time hopen
  cases hrun : (worldAt host plugin start acts time).item.run with
  | none => exact ⟨time, le_rfl, Or.inl ⟨hopen, hrun⟩⟩
  | some running => exact hbusy time ⟨hopen, by rw [hrun]; rfl⟩

end

/-- The run of the attempt of `origin` is under way. -/
def Begun (origin : OpenCodeWake) (item : PluginItem) : Prop := ∃ stage, AtStage origin item stage

/-- A successful poll begins the run of an assigned wake, if none is under way. -/
theorem poll_begins {world : NativeWorld}
    (hknown : world.item.endpoint = some endpoint) (hfree : world.item.run = none)
    (hrow : world.row endpoint = some wake) (hassigned : wake.deliveryId = some deliveryId)
    (hterminal : wake.terminal = false) (hinput : validInput wake.nativeId)
    (hdelivery : validDelivery deliveryId)
    (hsucceeds : (NativeAct.poll calls).Succeeds plugin world) :
    ∃ view, wake.view = some view ∧ (world.step host plugin (.poll calls)).item =
      { world.item with wake := some view, run := some (view, .reading) } := by
  obtain ⟨session, held, next, response, haccepted, hstep⟩ :=
    @step_poll host _ _ _ _ hknown hsucceeds
  obtain rfl : held = some wake := haccepted.bound.wake.symm.trans hrow
  have hnext := haccepted.kept (by rw [hassigned]; rfl) hterminal
  have hview : wake.view = some
      { generation := wake.generation, deliveryId := deliveryId, nativeInputId := wake.nativeId,
        nativeLocation := wake.nativeLocation, scopeGeneration := wake.scopeGeneration,
        admitted := wake.admitted, terminal := false,
        retryExhausted := decide (20 ≤ wake.failures) } := by
    rw [OpenCodeWake.view, hassigned, hterminal]
    rfl
  have hsame : next.view = wake.view := by
    rw [hnext]
    rfl
  have hheld : wake.heldBy (plugin.base world.item.ownerId endpoint) calls.poll.now :=
    haccepted.bound.owned.resolve_left (by simp)
  have hlocation : wake.nativeLocation = plugin.directory := by
    simp only [OpenCodeWake.heldBy, Bool.and_eq_true, beq_iff_eq] at hheld
    exact hheld.1.2
  refine ⟨_, hview, ?_⟩
  rw [hstep, hsame, hview]
  unfold Plugin.startWake
  simp only
  rw [if_pos]
  simp [Plugin.sameLocation, hlocation, hfree, hinput, hdelivery]

section

variable (hcontinues : Continues host plugin start endpoint since acts)
include hcontinues

/-- A poll begins the run of the attempt. -/
theorem Continues.run_begins
    (hassigned : origin.deliveryId.isSome) (horigin : origin.endpointId = endpoint.1)
    (hinput : validInput origin.nativeId)
    (hdelivery : ∀ deliveryId, origin.deliveryId = some deliveryId → validDelivery deliveryId) :
    LeadsTo
      (fun time => WakeOpen origin (rowAt host plugin start endpoint acts time) ∧
        (worldAt host plugin start acts time).item.run = none)
      fun time => WakeOpen origin (rowAt host plugin start endpoint acts time) ∧
          Begun origin (worldAt host plugin start acts time).item ∨
        WakeShut origin (rowAt host plugin start endpoint acts time) := by
  have hevent : ∀ time, WakeOpen origin (rowAt host plugin start endpoint acts time) ∧
      (worldAt host plugin start acts time).item.run = none →
      (∃ calls, acts time = .poll calls) →
        WakeOpen origin (rowAt host plugin start endpoint acts (time + 1)) ∧
            Begun origin (worldAt host plugin start acts (time + 1)).item ∨
          WakeShut origin (rowAt host plugin start endpoint acts (time + 1)) := by
    rintro time ⟨hopen, hfree⟩ ⟨calls, hact⟩
    rcases hcontinues.open_step hassigned hopen with hstill | hshut
    · refine Or.inl ⟨hstill, ?_⟩
      obtain ⟨wake, hrow, hsame, hgeneration, hterminal⟩ := hopen
      have hsucceeds := hcontinues.succeeds time
      rw [hact] at hsucceeds
      obtain ⟨deliveryId, hsome⟩ := Option.isSome_iff_exists.mp hassigned
      have hkey : wake.endpointId = endpoint.1 := Table.key_of_get hrow
      have hnative : wake.nativeId = origin.nativeId := by
        rw [OpenCodeWake.nativeId, OpenCodeWake.nativeId, hkey, horigin, hgeneration]
      obtain ⟨view, hview, hitem⟩ := @poll_begins host plugin endpoint wake calls deliveryId _
        (hcontinues.owner time).2 hfree hrow (hsame.trans hsome) hterminal (hnative ▸ hinput)
        (hdelivery deliveryId hsome) hsucceeds
      obtain ⟨assigned, hassigned, rfl⟩ := Option.map_eq_some_iff.mp hview
      change Begun origin ((worldAt host plugin start acts time).step host plugin (acts time)).item
      rw [hact, hitem]
      exact ⟨.reading, _, rfl, ⟨hgeneration, hassigned.symm.trans hsame, hnative⟩⟩
    · exact Or.inr hshut
  refine hcontinues.polls_recur.leadsTo (fun time hbefore => ?_) hevent
  obtain ⟨hopen, hfree⟩ := hbefore
  by_cases hact : ∃ calls, acts time = .poll calls
  · exact Or.inr (hevent time ⟨hopen, hfree⟩ hact)
  · rcases hcontinues.open_step hassigned hopen with hstill | hshut
    · refine Or.inl ⟨hstill, ?_⟩
      obtain ⟨wake, hrow, -⟩ := hopen
      by_cases hadvance : ∃ owned call, acts time = .advance owned call
      · obtain ⟨owned, call, hadvance⟩ := hadvance
        change ((worldAt host plugin start acts time).step host plugin (acts time)).item.run = none
        rw [hadvance]
        unfold NativeWorld.step Plugin.advance
        simp only [hfree]
      · rw [hcontinues.run_kept (fun owned call hother => hadvance ⟨owned, call, hother⟩) hrow
          (Or.inr fun calls hother => hact ⟨calls, hother⟩)]
        exact hfree
    · exact Or.inr (Or.inr hshut)

/-- While the history shows the end of the wake, its run reports it. -/
theorem Continues.run_reports
    (hassigned : origin.deliveryId.isSome) (horigin : origin.endpointId = endpoint.1) {bound : ℕ}
    (hshown : ∀ time, bound ≤ time →
      WakeOpen origin (rowAt host plugin start endpoint acts time) → ∀ view, Views origin view →
        ShowsEnd (worldAt host plugin start acts time).history view) :
    LeadsTo
      (fun time => bound ≤ time ∧ WakeOpen origin (rowAt host plugin start endpoint acts time) ∧
        Begun origin (worldAt host plugin start acts time).item)
      fun time => WakeShut origin (rowAt host plugin start endpoint acts time) := by
  refine hcontinues.run_leads hassigned
    (fun time ⟨_, hopen, stage, view, hrun, _⟩ => ⟨hopen, by rw [hrun]; rfl⟩)
    (fun time ⟨hlater, _, stage, view, hrun, hviews⟩ hstill hsame =>
      ⟨hlater.trans (Nat.le_succ time), hstill, stage, view, hsame.trans hrun, hviews⟩)
    (fun _ => id) ?_
  rintro time owned call ⟨hlater, hopen, stage, view, hrun, hviews⟩ hact hnext
  have hsucceeds := hcontinues.succeeds time
  rw [hact] at hsucceeds
  have hknown := (hcontinues.owner time).2
  by_cases hlast : stage.left = 0
  · cases stage with
    | reporting terminalMessageId =>
      refine Or.inr ?_
      unfold rowAt
      rw [hnext]
      exact advance_reporting hrun hknown hviews horigin hopen hsucceeds
    | _ => cases hlast
  · rcases hcontinues.open_step hassigned hopen with hstill | hshut
    · obtain ⟨rfl, hanswered, -⟩ := hsucceeds
      have hgoes := @advance_shown plugin endpoint _ view stage call hrun hknown hanswered
        (hshown time hlater hopen view hviews) hlast
      rcases @advance_left plugin endpoint _ view stage true call hrun hknown with
        hended | ⟨later, hrest, hless⟩
      · rw [hended] at hgoes
        cases hgoes
      · rw [← hnext] at hrest
        refine Or.inl ⟨⟨hlater.trans (Nat.le_succ time), hstill, later, view, hrest, hviews⟩, ?_⟩
        rw [PluginItem.left, PluginItem.left, hrest, hrun]
        exact hless
    · exact Or.inr hshut

/-- At this poll the assignment of the delivery is over, and the oldest eligible one
is assigned. -/
def EndsAt (host : Host) (plugin : Plugin) (start : NativeWorld) (endpoint : String × ℕ)
    (acts : ℕ → NativeAct) (deliveryId : String) (time : ℕ) : Prop :=
  ∃ calls next, acts time = .poll calls ∧
    rowAt host plugin start endpoint acts (time + 1) = some next ∧
    next.deliveryId ≠ some deliveryId ∧
    Oldest plugin endpoint.1 (worldAt host plugin start acts time).store calls.poll.now
      next.deliveryId

theorem Continues.served
    (time : ℕ) : ServedTo host start.store (worldAt host plugin start acts time).store := by
  induction time with
  | zero => exact ServedTo.refl start.store
  | succ time ih =>
    have hstep : ServedTo host (worldAt host plugin start acts time).store
        (worldAt host plugin start acts (time + 1)).store :=
      NativeWorld.step_served (acts time) fun op hop => (hcontinues.others time op hop).1
    exact ih.trans hstep

end

theorem Oldest.ne_done {store : RelayStore} {now : ℤ}
    (hdone : Done store deliveryId since) (hlater : since ≤ now) {choice : Option String}
    (holdest : Oldest plugin endpoint.1 store now choice) : choice ≠ some deliveryId := by
  rintro rfl
  obtain ⟨row, heligible, rfl, -⟩ := holdest
  have hfinished := hdone.not_open hlater heligible.delivery heligible.message heligible.live
  have hclaimable := heligible.claimable
  rw [hfinished.not_claimable] at hclaimable
  cases hclaimable

theorem Continues.poll_shut (hcontinues : Continues host plugin start endpoint since acts)
    (hassigned : origin.deliveryId = some deliveryId)
    (hdone : Done start.store deliveryId since)
    (hshut : WakeShut origin (rowAt host plugin start endpoint acts time))
    (hact : acts time = .poll calls) :
    EndsAt host plugin start endpoint acts deliveryId time := by
  obtain ⟨wake, hrow, hcases⟩ := hshut
  have hlater := hcontinues.since_le hact
  have hstill := hdone.served (hcontinues.served time)
  have hsucceeds := hcontinues.succeeds time
  rw [hact] at hsucceeds
  obtain ⟨session, held, next, response, haccepted, hstep⟩ :=
    @step_poll host _ _ _ _ (hcontinues.owner time).2 hsucceeds
  obtain rfl : held = some wake := haccepted.bound.wake.symm.trans hrow
  have hsettled : (settleTerminal (worldAt host plugin start acts time).store calls.poll.now
      { wake with ownerExpiresAt := calls.poll.now + seconds 15 }).deliveryId = none := by
    rcases hcases with hnone | ⟨hdelivery, hterminal⟩
    · simp [settleTerminal, hnone]
    · have hgiven := @Done.settleTerminal (worldAt host plugin start acts time).store deliveryId since
        calls.poll.now { wake with ownerExpiresAt := calls.poll.now + seconds 15 } hstill hlater
        (hdelivery.trans hassigned) hterminal
      rw [hgiven]
  have hid : session.id = endpoint.1 := Table.key_of_get haccepted.bound.session
  have holdest := @assignOldest_oldest plugin (worldAt host plugin start acts time).store
    endpoint.1 calls.poll.now
    (plugin.base (worldAt host plugin start acts time).item.ownerId endpoint) session _ hsettled hid
    rfl rfl rfl
  rw [← haccepted.polled] at holdest
  refine ⟨calls, next, hact, ?_, holdest.ne_done hstill hlater, holdest⟩
  change ((worldAt host plugin start acts time).step host plugin (acts time)).row endpoint = _
  rw [hact, hstep]
  exact haccepted.get

/-- A wake whose delivery is done ends, if from some time on the history shows how it
ended. -/
theorem Continues.ends (hcontinues : Continues host plugin start endpoint since acts)
    (hrow : start.row endpoint = some origin)
    (hassigned : origin.deliveryId = some deliveryId)
    (hdone : Done start.store deliveryId since) (hinput : validInput origin.nativeId)
    (hdelivery : validDelivery deliveryId) {bound : ℕ}
    (hshown : ∀ time, bound ≤ time →
      WakeOpen origin (rowAt host plugin start endpoint acts time) → ∀ view, Views origin view →
        ShowsEnd (worldAt host plugin start acts time).history view) :
    ∃ time, EndsAt host plugin start endpoint acts deliveryId time := by
  have hsome : origin.deliveryId.isSome := by rw [hassigned]; rfl
  have horigin : origin.endpointId = endpoint.1 := Table.key_of_get hrow
  have hdeliveries : ∀ id, origin.deliveryId = some id → validDelivery id := by
    intro id hid
    obtain rfl := Option.eq_some_unique hassigned hid
    exact hdelivery
  have hpolled : LeadsTo
      (fun time => WakeShut origin (rowAt host plugin start endpoint acts time))
      fun time => ∃ earlier, EndsAt host plugin start endpoint acts deliveryId earlier := by
    have hevent : ∀ time, WakeShut origin (rowAt host plugin start endpoint acts time) →
        (∃ calls, acts time = .poll calls) →
          ∃ earlier, EndsAt host plugin start endpoint acts deliveryId earlier :=
      fun time hshut ⟨calls, hact⟩ =>
        ⟨time, hcontinues.poll_shut hassigned hdone hshut hact⟩
    refine hcontinues.polls_recur.leadsTo (fun time hshut => ?_) hevent
    by_cases hact : ∃ calls, acts time = .poll calls
    · exact Or.inr (hevent time hshut hact)
    · obtain ⟨wake, hwake, hcases⟩ := hshut
      obtain ⟨next, hnext, honward⟩ :=
        hcontinues.onward (fun calls hother => hact ⟨calls, hother⟩) hwake
      have hkept := WakeShut.onward ⟨wake, rfl, hcases⟩ honward
      unfold rowAt
      rw [hnext]
      exact Or.inl hkept
  have hopenEnds : LeadsTo
      (fun time => WakeOpen origin (rowAt host plugin start endpoint acts time))
      fun time => WakeShut origin (rowAt host plugin start endpoint acts time) := by
    have hbeyond : LeadsTo
        (fun time => WakeOpen origin (rowAt host plugin start endpoint acts time))
        fun time => bound ≤ time ∧ WakeOpen origin (rowAt host plugin start endpoint acts time) ∨
          WakeShut origin (rowAt host plugin start endpoint acts time) :=
      .of_stays (fun time hstill => hcontinues.open_step hsome hstill) bound
    intro time hopen
    obtain ⟨late, hlate, ⟨hbound, hstill⟩ | hshut⟩ := hbeyond time hopen
    · obtain ⟨free, hfree, ⟨hstill, hnone⟩ | hshut⟩ := hcontinues.run_ends hsome late hstill
      · obtain ⟨begun, hbegun, ⟨hstill, hrun⟩ | hshut⟩ :=
          hcontinues.run_begins hsome horigin hinput hdeliveries free ⟨hstill, hnone⟩
        · obtain ⟨last, hlast, hshut⟩ := hcontinues.run_reports hsome horigin hshown begun
            ⟨hbound.trans (hfree.trans hbegun), hstill, hrun⟩
          exact ⟨last, hlate.trans (hfree.trans (hbegun.trans hlast)), hshut⟩
        · exact ⟨begun, hlate.trans (hfree.trans hbegun), hshut⟩
      · exact ⟨free, hlate.trans hfree, hshut⟩
    · exact ⟨late, hlate, hshut⟩
  cases hterminal : origin.terminal with
  | false =>
    obtain ⟨time, -, hends⟩ := hopenEnds.trans hpolled 0 ⟨origin, hrow, rfl, rfl, hterminal⟩
    exact hends
  | true =>
    obtain ⟨time, -, hends⟩ := hpolled 0 ⟨origin, hrow, Or.inr ⟨rfl, hterminal⟩⟩
    exact hends

end Progress

section Conclusions

variable {host : Host} {plugin : Plugin} {world : NativeWorld}

/-- From some time on the history shows how the wake ended, as long as the delivery is
assigned without a terminal record. -/
def EndShown (host : Host) (plugin : Plugin) (start : NativeWorld) (endpoint : String × ℕ)
    (acts : ℕ → NativeAct) (deliveryId : String) : Prop :=
  ∃ bound, ∀ time, bound ≤ time → ∀ wake view,
    rowAt host plugin start endpoint acts time = some wake → wake.deliveryId = some deliveryId →
      wake.terminal = false → wake.view = some view →
        ShowsEnd (worldAt host plugin start acts time).history view

/-- Whenever the assigned delivery is done, the assignment ends, in the continuations
that meet the condition. -/
def EndsWhenDone (host : Host) (plugin : Plugin)
    (condition : NativeWorld → String × ℕ → (ℕ → NativeAct) → String → Prop) : Prop :=
  ∀ world endpoint wake deliveryId since acts, world.Reachable host plugin →
    world.row endpoint = some wake → wake.deliveryId = some deliveryId →
      wake.generation < 2 ^ 63 → Done world.store deliveryId since →
        Continues host plugin world endpoint since acts →
          condition world endpoint acts deliveryId →
            ∃ time, EndsAt host plugin world endpoint acts deliveryId time

/-- A poll cycle: a poll, the reading of the history, and the submission of the
input, with what others do in between. -/
structure WakeCycle where
  calls : Plugin.PollCalls
  before : List NativeAct
  read : PluginCall
  between : List NativeAct
  prompt : PluginCall

/-- What the service and the session do by themselves. -/
def NativeAct.OfOthers : NativeAct → Prop
  | .relay _ => True
  | .record _ => True
  | .compact _ => True
  | _ => False

namespace WakeCycle

/-- The world in which the history is read. -/
def reads (host : Host) (plugin : Plugin) (cycle : WakeCycle) (world : NativeWorld) :
    NativeWorld :=
  run (NativeWorld.step host plugin) (world.step host plugin (.poll cycle.calls)) cycle.before

/-- The world in which the input is submitted. -/
def prompts (host : Host) (plugin : Plugin) (cycle : WakeCycle) (world : NativeWorld) :
    NativeWorld :=
  run (NativeWorld.step host plugin)
    ((cycle.reads host plugin world).step host plugin (.advance true cycle.read)) cycle.between

/-- The world after the cycle. -/
def ends (host : Host) (plugin : Plugin) (cycle : WakeCycle) (world : NativeWorld) :
    NativeWorld :=
  (cycle.prompts host plugin world).step host plugin (.advance true cycle.prompt)

/-- All calls of the cycle succeed. -/
def Succeeds (plugin : Plugin) (cycle : WakeCycle) (world : NativeWorld) : Prop :=
  (NativeAct.poll cycle.calls).Succeeds plugin world ∧ cycle.read.link = .answered ∧
    cycle.prompt.link = .answered ∧ (∀ act ∈ cycle.before, act.OfOthers) ∧
      ∀ act ∈ cycle.between, act.OfOthers

end WakeCycle

/-- A cycle of a claimable delivery whose attempt has no terminal record and whose
input is not in the history submits the input or starts the next attempt, for the
wakes that meet the condition. -/
def SubmitsOrRetries (host : Host) (plugin : Plugin) (condition : OpenCodeWake → Prop) : Prop :=
  ∀ world endpoint wake view delivery, world.Reachable host plugin →
    world.item.endpoint = some endpoint → world.item.run = none →
      world.row endpoint = some wake → wake.view = some view → wake.generation < 2 ^ 63 →
        wake.terminal = false → condition wake →
          world.store.deliveries.get view.deliveryId = some delivery →
    ∀ cycle : WakeCycle, cycle.Succeeds plugin world →
      claimable cycle.calls.poll.now delivery →
        view.observed (cycle.reads host plugin world).history = false →
          (cycle.ends host plugin world).history =
              (cycle.prompts host plugin world).history ++ [view.input] ∨
            ∃ next, (world.step host plugin (.poll cycle.calls)).row endpoint = some next ∧
              wake.generation < next.generation

theorem ShowsEnd.congr {history : List NativeRecord} {view other : OpenCodeWakeView}
    (hshows : ShowsEnd history view) (hgeneration : other.generation = view.generation)
    (hdelivery : other.deliveryId = view.deliveryId)
    (hinput : other.nativeInputId = view.nativeInputId) : ShowsEnd history other := by
  unfold ShowsEnd OpenCodeWakeView.observed at hshows ⊢
  rw [hgeneration, hdelivery, hinput]
  exact hshows

theorem NativeWorld.Reachable.storeNamed
    (hreachable : world.Reachable host plugin) : StoreNamed host world.store := by
  obtain ⟨ops, -, hstore⟩ := hreachable.served
  rw [hstore]
  exact reached_storeNamed host ops

theorem StoreNamed.served {store after : RelayStore} (hnamed : StoreNamed host store)
    (hserved : ServedTo host store after) : StoreNamed host after := by
  obtain ⟨ops, -, rfl⟩ := hserved
  exact @run_invariant _ _ _ (StoreNamed host) store hnamed
    (fun _ op hstill => op.step_storeNamed hstill) ops

theorem validInput_of_stored {store : RelayStore} {endpointId : String} {wake : OpenCodeWake}
    {session : RelaySession} (hdraws : host.DrawsHex) (hnamed : StoreNamed host store)
    (hkey : wake.endpointId = endpointId)
    (hsession : store.sessions.get endpointId = some session)
    (hgeneration : wake.generation < 2 ^ 63) : validInput wake.nativeId := by
  obtain ⟨draw, hdraw⟩ := hnamed.sessions endpointId session hsession
  exact validInput_nativeId hdraws (hkey.trans hdraw) hgeneration

theorem exists_session_of_poll (host : Host) {endpoint : String × ℕ}
    {calls : Plugin.PollCalls} (hknown : world.item.endpoint = some endpoint)
    (hsucceeds : (NativeAct.poll calls).Succeeds plugin world) :
    ∃ session, world.store.sessions.get endpoint.1 = some session := by
  obtain ⟨session, held, next, response, haccepted, -⟩ :=
    @step_poll host plugin world endpoint calls hknown hsucceeds
  exact ⟨session, haccepted.bound.session⟩

theorem endsWhenDone (hdraws : host.DrawsHex) (plugin : Plugin) :
    EndsWhenDone host plugin (EndShown host plugin) := by
  intro world endpoint wake deliveryId since acts hreachable hrow hassigned hgeneration hdone
    hcontinues ⟨bound, hshown⟩
  have hnamed := hreachable.storeNamed
  have horigin : wake.endpointId = endpoint.1 := Table.key_of_get hrow
  have hdelivery : validDelivery deliveryId := by
    obtain ⟨delivery, hget, -⟩ := hdone
    exact validDelivery_of_stored hdraws hnamed hget
  have hinput : validInput wake.nativeId := by
    obtain ⟨first, -, calls, hact⟩ := hcontinues.polls_recur 0
    have hsucceeds := hcontinues.succeeds first
    rw [hact] at hsucceeds
    obtain ⟨session, hsession⟩ := exists_session_of_poll host (hcontinues.owner first).2
      hsucceeds
    exact validInput_of_stored hdraws (hnamed.served (hcontinues.served first)) horigin hsession
      hgeneration
  refine @Continues.ends _ _ _ _ _ _ _ _ hcontinues hrow hassigned hdone hinput hdelivery bound
    fun time hlater hopen view hviews => ?_
  obtain ⟨current, hcurrent, hsame, hattempt, hterminal⟩ := hopen
  have hkey : current.endpointId = endpoint.1 := Table.key_of_get hcurrent
  have hnative : current.nativeId = wake.nativeId := by
    rw [OpenCodeWake.nativeId, OpenCodeWake.nativeId, hkey, horigin, hattempt]
  have hcurrentDelivery := hsame.trans hassigned
  refine (hshown time hlater current _ hcurrent hcurrentDelivery hterminal
    (by rw [OpenCodeWake.view, hcurrentDelivery]; rfl)).congr ?_ ?_ ?_
  · exact hviews.generation.trans hattempt.symm
  · exact Option.some.inj (hviews.deliveryId.trans hassigned)
  · exact hviews.nativeInputId.trans hnative.symm

theorem item_of_others {acts : List NativeAct}
    (hothers : ∀ act ∈ acts, act.OfOthers) :
    (run (NativeWorld.step host plugin) world acts).item = world.item := by
  induction acts generalizing world with
  | nil => rfl
  | cons act rest ih =>
    rw [run_cons, ih (List.forall_mem_cons.mp hothers).2]
    have hact := hothers act List.mem_cons_self
    cases act with
    | relay op => rfl
    | record message => rfl
    | compact lost => rfl
    | _ => exact hact.elim

theorem submitsOrRetries (hdraws : host.DrawsHex) (plugin : Plugin) :
    SubmitsOrRetries host plugin fun wake => wake.admitted = false := by
  intro world endpoint wake view delivery hreachable hknown hfree hrow hview hgeneration hterminal
    hadmitted hget cycle hsucceeds _ hmissing
  obtain ⟨hpoll, hread, hprompt, hbefore, hbetween⟩ := hsucceeds
  refine Or.inl ?_
  have hnamed := hreachable.storeNamed
  obtain ⟨deliveryId, hassigned, hmade⟩ := Option.map_eq_some_iff.mp hview
  have hid : view.deliveryId = deliveryId := by rw [← hmade]
  obtain ⟨session, hsession⟩ := exists_session_of_poll host hknown hpoll
  have hkey : wake.endpointId = endpoint.1 := Table.key_of_get hrow
  have hinput := validInput_of_stored hdraws hnamed hkey hsession hgeneration
  have hdelivery : validDelivery deliveryId := validDelivery_of_stored hdraws hnamed (hid ▸ hget)
  obtain ⟨polled, hpolled, hitem⟩ := @poll_begins host plugin endpoint wake cycle.calls deliveryId
    world hknown hfree hrow hassigned hterminal hinput hdelivery hpoll
  obtain rfl : view = polled := Option.eq_some_unique hview hpolled
  have hviewAdmitted : view.admitted = false := by
    rw [← hmade]
    exact hadmitted
  have hreads : (cycle.reads host plugin world).item =
      { world.item with wake := some view, run := some (view, .reading) } := by
    rw [WakeCycle.reads, item_of_others hbefore, hitem]
  have hprompts : (cycle.prompts host plugin world).item =
      { world.item with wake := some view, run := some (view, .prompting) } := by
    rw [WakeCycle.prompts, item_of_others hbetween]
    simp only [NativeWorld.step, Plugin.advance, hreads, hknown, if_true, hread, beq_self_eq_true,
      Bool.true_and, hmissing, Bool.false_eq_true, if_false, hviewAdmitted, Bool.not_false]
  simp only [WakeCycle.ends, NativeWorld.step, Plugin.advance, hprompts, hknown, if_true, hprompt,
    reduceCtorEq, if_false]

/-- The native wake leads on: a wake whose delivery is done ends, provided that the
native history goes on to show how it ended, and a cycle of a wake that has not been
admitted submits the input that is missing. -/
theorem native_wake_leads_on (hdraws : host.DrawsHex) (plugin : Plugin) :
    EndsWhenDone host plugin (EndShown host plugin) ∧
      SubmitsOrRetries host plugin fun wake => wake.admitted = false :=
  ⟨endsWhenDone hdraws plugin, submitsOrRetries hdraws plugin⟩

def examplePlugin : Plugin where
  sessionRef := "recipient"
  containerRef := "repo:a"
  directory := "desk"
  resolve := id

/-- A host whose draws are all 32 digits long. -/
def exampleHexHost : Host :=
  { exampleHost with
    uuid4Hex := fun draw => exampleHost.uuid4Hex (draw % 10) }

theorem exampleHexHost_drawsHex : exampleHexHost.DrawsHex := by
  have hdigits : ∀ digit : Fin 10, Text.isHexOfLength 32 (exampleHost.uuid4Hex digit) := by decide
  exact fun draw => hdigits ⟨draw % 10, Nat.mod_lt draw (by decide)⟩

theorem native_wake_leads_on_example :
    EndsWhenDone exampleHexHost examplePlugin (EndShown exampleHexHost examplePlugin) ∧
      SubmitsOrRetries exampleHexHost examplePlugin fun wake => wake.admitted = false :=
  native_wake_leads_on exampleHexHost_drawsHex examplePlugin

end Conclusions

section Compacted

variable {store : RelayStore} {request : OpenCodeRequest} {now : ℤ} {session : RelaySession}
  {wake : OpenCodeWake}

/-- A poll by the owner of the wake of an active session is served. -/
theorem relayOpenCodeWake_poll (hsession : store.sessions.get request.endpointId = some session)
    (hscope : session.runtime = .openCode ∧ session.sessionRef = request.sessionRef ∧
      session.containerRef = request.containerRef)
    (hactive : session.state = .active ∧
      request.scopeGeneration = store.scopeGeneration session.id)
    (hrow : store.openCodeWakes.get request.endpointId = some wake)
    (hheld : wake.heldBy request now) (hsnapshot : request.generation = none) :
    ∃ response next,
      relayOpenCodeWake .poll request now store =
        (({ store with openCodeWakes := store.openCodeWakes.put next }).modifySession session.id
            fun row => { row with lastSeenAt := now },
          .ok response) := by
  have hid : session.id = request.endpointId := Table.key_of_get hsession
  have hbinding : openCodeBinding store request now (OpenCodeOperation.poll = .enroll) =
      .ok (session, some wake) := by
    simp only [openCodeBinding, bind_eq_ok, orRaise_eq_ok, require_eq_ok, pure_eq_ok]
    refine ⟨session, hsession, (), hscope, (), hactive, (), Or.inr ?_, (), Or.inl ?_, ?_⟩
    · rw [hid, hrow]
      exact hheld
    · rw [hsnapshot]
      rfl
    · rw [hid, hrow]
  have hbody : ∃ response next, relayOpenCodeWakeBody .poll request now store =
      .ok (({ store with openCodeWakes := store.openCodeWakes.put next }).modifySession session.id
        fun row => { row with lastSeenAt := now }, response) := by
    unfold relayOpenCodeWakeBody
    rw [hbinding]
    exact ⟨_, _, rfl⟩
  obtain ⟨response, next, hok⟩ := hbody
  exact ⟨response, next, transaction_of_ok hok⟩

end Compacted

section Example

def exampleOwner : String := "opencode-owner-1"

def exampleEndpoint : String × ℕ := ("relay-session-00000000000040008000000000000001", 0)

def exampleListed : SessionView where
  endpointId := exampleEndpoint.1
  runtime := .openCode
  sessionRef := "recipient"
  containerRef := "repo:a"
  title := none
  aliasName := none
  state := .recent
  destinationHealth := some .active
  firstSeenAt := "2026-10-07T00:00:00+00:00"
  lastSeenAt := "2026-10-07T00:00:00+00:00"
  closedAt := none
  scopeGeneration := exampleEndpoint.2

def exampleCall (now : ℤ) : PluginCall := ⟨.answered, now⟩

def examplePoll (now : ℤ) : Plugin.PollCalls :=
  ⟨true, exampleCall now, true, exampleCall now, true, exampleCall now⟩

def exampleIdle : NativeRecord := ⟨.idle, "msg_idle", "", none⟩

/-- The plugin submits the input of a message and reports its admission; then the
history is compacted and the session becomes idle. -/
def exampleAdmitted : List NativeAct :=
  [.relay (.turn (exampleTurn .codex "sender") exampleClock 0),
    .relay (.turn (exampleTurn .openCode "recipient") exampleClock 0),
    .relay (.send (exampleSend "message") 0), .restore exampleListed true (exampleCall 0),
    .poll (examplePoll 0), .advance true (exampleCall 0), .advance true (exampleCall 0),
    .advance true (exampleCall 0), .advance true (exampleCall 0), .compact 1, .record exampleIdle,
    .advance true (exampleCall 0), .advance true (exampleCall 0)]

/-- A turn of the user then claims the message and acknowledges it. -/
def exampleDelivered : List NativeAct :=
  exampleAdmitted ++
    [.relay (.turn (exampleTurn .openCode "recipient") exampleClock 1000000),
      .relay (.ack exampleDeliveryId "relay-claim-00000000000040008000000000000003" 1000000)]

def exampleWorld (acts : List NativeAct) : NativeWorld :=
  run (NativeWorld.step exampleHost examplePlugin) (.initial exampleOwner) acts

/-- The wake is admitted, and its input is not in the history any more. -/
structure Wedged (world : NativeWorld) (lease : ℤ) : Prop where
  history : world.history = [exampleIdle]
  owner : world.item.ownerId = exampleOwner
  endpoint : world.item.endpoint = some exampleEndpoint
  session : ∃ session, world.store.sessions.get exampleEndpoint.1 = some session ∧
    session.runtime = .openCode ∧ session.sessionRef = "recipient" ∧
      session.containerRef = "repo:a" ∧ session.state = .active
  generation : world.store.scopeGeneration exampleEndpoint.1 = 0
  row : ∃ wake, world.row exampleEndpoint = some wake ∧ wake.ownerId = some exampleOwner ∧
    wake.nativeLocation = "desk" ∧ wake.scopeGeneration = 0 ∧ wake.generation = 1 ∧
      wake.deliveryId = some exampleDeliveryId ∧ wake.admitted = true ∧ wake.terminal = false ∧
        lease ≤ wake.ownerExpiresAt
  run : ∀ view stage, world.item.run = some (view, stage) →
    stage = .reading ∧ view.admitted = true

variable {world : NativeWorld} {acts : List NativeAct}

theorem Wedged.mono {lease earlier : ℤ} (hwedged : Wedged world lease)
    (hearlier : earlier ≤ lease) : Wedged world earlier := by
  obtain ⟨wake, hrow, howner, hlocation, hscope, hgeneration, hdelivery, hadmitted, hterminal,
    hlease⟩ := hwedged.row
  exact { hwedged with
    row := ⟨wake, hrow, howner, hlocation, hscope, hgeneration, hdelivery, hadmitted, hterminal,
      hearlier.trans hlease⟩ }

theorem Wedged.poll_succeeds {lease now : ℤ} (hwedged : Wedged world lease)
    (hnow : now < lease) : (NativeAct.poll (examplePoll now)).Succeeds examplePlugin world := by
  refine ⟨rfl, rfl, rfl, fun endpoint hendpoint => ?_⟩
  obtain rfl := Option.eq_some_unique hwedged.endpoint hendpoint
  obtain ⟨session, hsession, hruntime, href, hcontainer, hactive⟩ := hwedged.session
  obtain ⟨wake, hrow, howner, hlocation, hscope, -, -, -, -, hlease⟩ := hwedged.row
  have hid : session.id = exampleEndpoint.1 := Table.key_of_get hsession
  obtain ⟨response, next, hserved⟩ := @relayOpenCodeWake_poll world.store
    (examplePlugin.base world.item.ownerId exampleEndpoint) now session wake hsession
    ⟨hruntime, href, hcontainer⟩ ⟨hactive, (hid ▸ hwedged.generation).symm⟩ hrow
    (by simp [OpenCodeWake.heldBy, Plugin.base, howner, hwedged.owner, hlocation, hscope,
      examplePlugin, exampleEndpoint, hnow.trans_le hlease]) rfl
  refine ⟨response, ?_⟩
  change (relayOpenCodeWake .poll _ now world.store).2 = _
  rw [hserved]

theorem startWake_item (plugin : Plugin) (item : PluginItem) (wake : Option OpenCodeWakeView) :
    ∃ running, plugin.startWake item wake = { item with run := running } ∧
      (running = item.run ∨ ∃ view, wake = some view ∧ running = some (view, .reading)) := by
  unfold Plugin.startWake
  cases wake with
  | none => exact ⟨item.run, rfl, Or.inl rfl⟩
  | some view =>
    simp only
    split
    · exact ⟨_, rfl, Or.inr ⟨view, rfl, rfl⟩⟩
    · exact ⟨item.run, rfl, Or.inl rfl⟩

theorem Wedged.poll {lease now : ℤ} (hwedged : Wedged world lease) (hnow : now < lease) :
    Wedged (world.step exampleHost examplePlugin (.poll (examplePoll now))) (now + seconds 15) := by
  obtain ⟨session, hsession, hruntime, href, hcontainer, hactive⟩ := hwedged.session
  obtain ⟨wake, hrow, howner, hlocation, hscope, hgeneration, hdelivery, hadmitted, hterminal,
    hlease⟩ := hwedged.row
  have hid : session.id = exampleEndpoint.1 := Table.key_of_get hsession
  obtain ⟨response, stored, hserved⟩ := @relayOpenCodeWake_poll world.store
    (examplePlugin.base world.item.ownerId exampleEndpoint) now session wake hsession
    ⟨hruntime, href, hcontainer⟩ ⟨hactive, (hid ▸ hwedged.generation).symm⟩ hrow
    (by simp [OpenCodeWake.heldBy, Plugin.base, howner, hwedged.owner, hlocation, hscope,
      examplePlugin, exampleEndpoint, hnow.trans_le hlease]) rfl
  obtain ⟨found, held, next, _, haccepted, hstep⟩ := @step_poll exampleHost examplePlugin world
    exampleEndpoint (examplePoll now) hwedged.endpoint (hwedged.poll_succeeds hnow)
  obtain rfl : held = some wake := haccepted.bound.wake.symm.trans hrow
  have hnext := haccepted.kept (by rw [hdelivery]; rfl) hterminal
  obtain ⟨running, hitem, hrunning⟩ := startWake_item examplePlugin
    { world.item with wake := next.view } next.view
  have hafter : (relayOpenCodeWake .poll (examplePlugin.base world.item.ownerId exampleEndpoint)
      (examplePoll now).poll.now world.store).1 =
        ({ world.store with openCodeWakes := world.store.openCodeWakes.put stored }).modifySession
          session.id fun row => { row with lastSeenAt := now } := by
    change (relayOpenCodeWake .poll _ now world.store).1 = _
    rw [hserved]
  rw [hstep, hitem]
  refine
    { history := hwedged.history
      owner := hwedged.owner
      endpoint := hwedged.endpoint
      session := ⟨{ session with lastSeenAt := now }, ?_, hruntime, href, hcontainer, hactive⟩
      generation := ?_
      row := ⟨next, haccepted.get, ?_⟩
      run := fun view stage hrun => ?_ }
  · simp only
    rw [hafter]
    change (world.store.sessions.modify session.id fun row =>
      { row with lastSeenAt := now }).get exampleEndpoint.1 = _
    rw [← hid] at hsession ⊢
    rw [@Table.get_modify_self _ _ _ _ (fun row => { row with lastSeenAt := now })
      world.store.sessions session.id fun _ => rfl, hsession]
    rfl
  · simp only
    rw [hafter]
    exact hwedged.generation
  · rw [hnext]
    exact ⟨howner, hlocation, hscope, hgeneration, hdelivery, hadmitted, hterminal, le_rfl⟩
  · rcases hrunning with hsame | ⟨polled, hpolled, hbegun⟩
    · exact hwedged.run view stage (hsame.symm.trans hrun)
    · obtain ⟨rfl, rfl⟩ := Prod.mk.inj (Option.eq_some_unique hbegun hrun)
      refine ⟨rfl, ?_⟩
      rw [hnext, OpenCodeWake.view, hdelivery] at hpolled
      cases hpolled
      exact hadmitted

theorem Wedged.advance {lease now : ℤ} (hwedged : Wedged world lease) :
    (NativeAct.advance true (exampleCall now)).Succeeds examplePlugin world ∧
      Wedged (world.step exampleHost examplePlugin (.advance true (exampleCall now))) lease := by
  cases hrun : world.item.run with
  | none =>
    have hsame : world.step exampleHost examplePlugin (.advance true (exampleCall now)) =
        world := by
      simp only [NativeWorld.step, Plugin.advance, hrun]
    rw [hsame]
    refine ⟨⟨rfl, rfl, fun operation request hpending => ?_⟩, hwedged⟩
    simp only [Plugin.pending, hrun, reduceCtorEq] at hpending
  | some running =>
    obtain ⟨view, stage⟩ := running
    obtain ⟨rfl, hadmitted⟩ := hwedged.run view stage hrun
    have hunseen : view.observed [exampleIdle] = false := by
      simp [OpenCodeWakeView.observed, isInput, exampleIdle]
    have hstopped : world.step exampleHost examplePlugin (.advance true (exampleCall now)) =
        { world with item := { world.item with run := none } } := by
      simp [NativeWorld.step, Plugin.advance, hrun, hwedged.endpoint, hwedged.history, hunseen,
        hadmitted]
    rw [hstopped]
    refine ⟨⟨rfl, rfl, fun operation request hpending => ?_⟩,
      { hwedged with run := fun _ _ hnone => by cases hnone }⟩
    simp only [Plugin.pending, hrun, hwedged.endpoint, reduceCtorEq] at hpending

/-- From `since` on the plugin polls and makes its next calls in turn. -/
def exampleActs (since : ℤ) (time : ℕ) : NativeAct :=
  if time % 2 = 0 then .poll (examplePoll (since + (time / 2 : ℕ) * pollInterval))
  else .advance true (exampleCall (since + (time / 2 : ℕ) * pollInterval))

theorem exampleActs_even (since : ℤ) (count : ℕ) :
    exampleActs since (2 * count) = .poll (examplePoll (since + count * pollInterval)) := by
  rw [exampleActs, if_pos (by omega), Nat.mul_div_cancel_left count (by decide)]

theorem exampleActs_odd (since : ℤ) (count : ℕ) :
    exampleActs since (2 * count + 1) =
      .advance true (exampleCall (since + count * pollInterval)) := by
  rw [exampleActs, if_neg (by omega), show (2 * count + 1) / 2 = count by omega]

section Forever

variable {world : NativeWorld} {since : ℤ}

theorem Wedged.forever (hwedged : Wedged world (since + seconds 10)) (count : ℕ) :
    Wedged (worldAt exampleHost examplePlugin world (exampleActs since) (2 * count))
        (since + count * pollInterval + seconds 10) ∧
      Wedged (worldAt exampleHost examplePlugin world (exampleActs since) (2 * count + 1))
        (since + count * pollInterval + seconds 15) := by
  have hpolled : ∀ count : ℕ,
      Wedged (worldAt exampleHost examplePlugin world (exampleActs since) (2 * count))
        (since + count * pollInterval + seconds 10) →
      Wedged (worldAt exampleHost examplePlugin world (exampleActs since) (2 * count + 1))
        (since + count * pollInterval + seconds 15) := by
    intro count heven
    change Wedged ((worldAt exampleHost examplePlugin world (exampleActs since)
      (2 * count)).step exampleHost examplePlugin (exampleActs since (2 * count))) _
    rw [exampleActs_even]
    exact heven.poll (by rw [seconds]; omega)
  induction count with
  | zero =>
    have hstart : Wedged (worldAt exampleHost examplePlugin world (exampleActs since) (2 * 0))
        (since + (0 : ℕ) * pollInterval + seconds 10) := by
      rw [Nat.cast_zero, zero_mul, add_zero]
      exact hwedged
    exact ⟨hstart, hpolled 0 hstart⟩
  | succ count ih =>
    have heven : Wedged
        (worldAt exampleHost examplePlugin world (exampleActs since) (2 * (count + 1)))
        (since + (count + 1 : ℕ) * pollInterval + seconds 10) := by
      change Wedged ((worldAt exampleHost examplePlugin world (exampleActs since)
        (2 * count + 1)).step exampleHost examplePlugin (exampleActs since (2 * count + 1))) _
      rw [exampleActs_odd]
      refine ih.2.advance.2.mono ?_
      simp only [pollInterval, seconds]
      push_cast
      omega
    exact ⟨heven, hpolled (count + 1) heven⟩

theorem Wedged.lease {lease : ℤ} (hwedged : Wedged world lease) (time : ℕ)
    (hsince : since + seconds 10 ≤ lease) : ∃ later,
      Wedged (worldAt exampleHost examplePlugin world (exampleActs since) time) later ∧
        (∀ count, time = 2 * count → since + count * pollInterval < later) := by
  obtain ⟨heven, hodd⟩ := (hwedged.mono hsince).forever (time / 2)
  rcases Nat.mod_two_eq_zero_or_one time with hzero | hone
  · have htime : 2 * (time / 2) = time := by omega
    rw [htime] at heven
    refine ⟨_, heven, fun count hcount => ?_⟩
    have hcount : time / 2 = count := by omega
    rw [hcount, seconds]
    omega
  · have htime : 2 * (time / 2) + 1 = time := by omega
    rw [htime] at hodd
    exact ⟨_, hodd, fun count hcount => by omega⟩

theorem Wedged.continues {lease : ℤ} (hwedged : Wedged world lease)
    (hsince : since + seconds 10 ≤ lease) :
    Continues exampleHost examplePlugin world exampleEndpoint since (exampleActs since) where
  owner time := by
    obtain ⟨later, hlater, -⟩ := hwedged.lease time hsince
    exact ⟨hlater.owner.trans hwedged.owner.symm, hlater.endpoint⟩
  succeeds time := by
    obtain ⟨later, hlater, hbefore⟩ := hwedged.lease time hsince
    rcases Nat.mod_two_eq_zero_or_one time with hzero | hone
    · obtain ⟨count, rfl⟩ : ∃ count, time = 2 * count := ⟨time / 2, by omega⟩
      rw [exampleActs_even]
      exact hlater.poll_succeeds (hbefore count rfl)
    · obtain ⟨count, rfl⟩ : ∃ count, time = 2 * count + 1 := ⟨time / 2, by omega⟩
      rw [exampleActs_odd]
      exact hlater.advance.1
  others time op hact := by
    unfold exampleActs at hact
    split at hact <;> cases hact
  polls := by
    refine ⟨fun count => 2 * count, fun _ _ hless => by simpa using hless, fun count =>
      ⟨_, exampleActs_even since count, rfl⟩, fun time calls hact => ⟨time / 2, ?_⟩⟩
    unfold exampleActs at hact
    split at hact
    · simp only
      omega
    · cases hact
  returns time := ⟨2 * time + 1, by omega, _, _, exampleActs_odd since time⟩
  idle time := by
    obtain ⟨later, hlater, -⟩ := hwedged.lease time hsince
    refine ⟨time, le_rfl, exampleIdle, ?_, rfl, by decide⟩
    rw [hlater.history]
    rfl

end Forever

theorem exampleWorld_item : ∀ acts ∈ [exampleAdmitted, exampleDelivered],
    (exampleWorld acts).history = [exampleIdle] ∧
      (exampleWorld acts).item.ownerId = exampleOwner ∧
        (exampleWorld acts).item.endpoint = some exampleEndpoint ∧
          (exampleWorld acts).item.run.isNone = true := by
  decide +kernel

theorem exampleWorld_session : ∀ acts ∈ [exampleAdmitted, exampleDelivered],
    ((exampleWorld acts).store.sessions.get exampleEndpoint.1).map (fun session =>
        (session.runtime, session.sessionRef, session.containerRef, session.state)) =
      some (.openCode, "recipient", "repo:a", .active) ∧
      (exampleWorld acts).store.scopeGeneration exampleEndpoint.1 = 0 := by
  decide +kernel

theorem exampleWorld_attempt : ∀ acts ∈ [exampleAdmitted, exampleDelivered],
    ((exampleWorld acts).row exampleEndpoint).map (fun wake =>
        (wake.generation, wake.deliveryId, wake.admitted, wake.terminal)) =
      some (1, some exampleDeliveryId, true, false) := by
  decide +kernel

theorem exampleWorld_held : ∀ acts ∈ [exampleAdmitted, exampleDelivered],
    ((exampleWorld acts).row exampleEndpoint).map (fun wake =>
        (wake.ownerId, wake.nativeLocation, wake.scopeGeneration, wake.ownerExpiresAt)) =
      some (some exampleOwner, "desk", 0, seconds 15) := by
  decide +kernel

theorem wedged_exampleWorld (hacts : acts ∈ [exampleAdmitted, exampleDelivered]) :
    Wedged (exampleWorld acts) (seconds 15) := by
  obtain ⟨hhistory, howner, hendpoint, hfree⟩ := exampleWorld_item acts hacts
  obtain ⟨hsession, hscope⟩ := exampleWorld_session acts hacts
  obtain ⟨session, hfound, hfields⟩ := Option.map_eq_some_iff.mp hsession
  obtain ⟨wake, hrow, hwake⟩ := Option.map_eq_some_iff.mp (exampleWorld_attempt acts hacts)
  have hheld := exampleWorld_held acts hacts
  rw [hrow] at hheld
  simp only [Prod.mk.injEq, Option.map_some, Option.some.injEq] at hfields hwake hheld
  obtain ⟨hgeneration, hdelivery, hadmitted, hterminal⟩ := hwake
  obtain ⟨howned, hlocation, hepoch, hlease⟩ := hheld
  exact
    { history := hhistory
      owner := howner
      endpoint := hendpoint
      session := ⟨session, hfound, hfields⟩
      generation := hscope
      row := ⟨wake, hrow, howned, hlocation, hepoch, hgeneration, hdelivery, hadmitted, hterminal,
        hlease.ge⟩
      run := fun view stage hrun => by
        rw [hrun] at hfree
        cases hfree }

theorem exampleWorld_reachable (hacts : acts ∈ [exampleAdmitted, exampleDelivered]) :
    (exampleWorld acts).Reachable exampleHost examplePlugin := by
  refine ⟨exampleOwner, acts, fun op hop => ?_, rfl⟩
  have hdelivered : .relay op ∈ exampleDelivered := by
    rcases List.mem_pair.mp hacts with rfl | rfl
    · exact List.mem_append_left _ hop
    · exact hop
  simp only [exampleDelivered, exampleAdmitted, List.cons_append, List.nil_append, List.mem_cons,
    NativeAct.relay.injEq, reduceCtorEq, false_or, List.not_mem_nil, or_false] at hdelivered
  rcases hdelivered with rfl | rfl | rfl | rfl | rfl
  all_goals decide

theorem exampleDelivered_done :
    Done (exampleWorld exampleDelivered).store exampleDeliveryId (seconds 2) := by
  have hstate : ((exampleWorld exampleDelivered).store.deliveries.get exampleDeliveryId).map
      (fun delivery => delivery.state) = some .delivered := by decide +kernel
  obtain ⟨delivery, hget, hdelivered⟩ := Option.map_eq_some_iff.mp hstate
  exact ⟨delivery, hget, Or.inl (Or.inl hdelivered)⟩

theorem exampleAdmitted_claimable :
    ((exampleWorld exampleAdmitted).store.deliveries.get exampleDeliveryId).map
      (fun delivery => claimable (seconds 1) delivery) = some true := by
  decide +kernel

/-- The poll of a wedged wake and the calls after it. -/
def exampleCycle : WakeCycle where
  calls := examplePoll (seconds 1)
  before := []
  read := exampleCall (seconds 1)
  between := []
  prompt := exampleCall (seconds 1)

/-- Without these conditions the wake can wedge: once its admitted input has been
compacted away, the assignment of a delivered message never ends, and that of a
pending one is neither submitted nor tried again. -/
theorem compacted_wake_wedges :
    ¬ EndsWhenDone exampleHost examplePlugin (fun _ _ _ _ => True) ∧
      ¬ SubmitsOrRetries exampleHost examplePlugin (fun _ => True) := by
  constructor
  · intro hends
    have hdelivered : exampleDelivered ∈ [exampleAdmitted, exampleDelivered] :=
      List.mem_pair.mpr (Or.inr rfl)
    have hwedged := wedged_exampleWorld hdelivered
    obtain ⟨wake, hrow, -, -, -, hgeneration, hdelivery, -⟩ := hwedged.row
    obtain ⟨time, calls, next, -, hnext, hother, -⟩ := hends (exampleWorld exampleDelivered)
      exampleEndpoint wake exampleDeliveryId (seconds 2) (exampleActs (seconds 2))
      (exampleWorld_reachable hdelivered) hrow hdelivery (by omega) exampleDelivered_done
      (hwedged.continues (by decide)) trivial
    obtain ⟨later, hlater, -⟩ :=
      @Wedged.lease _ (seconds 2) _ hwedged (time + 1) (by decide)
    obtain ⟨found, hfound, -, -, -, -, hstill, -⟩ := hlater.row
    obtain rfl := Option.some.inj (hfound.symm.trans hnext)
    exact hother hstill
  · intro hsubmits
    have hadmitted : exampleAdmitted ∈ [exampleAdmitted, exampleDelivered] :=
      List.mem_pair.mpr (Or.inl rfl)
    have hwedged := wedged_exampleWorld hadmitted
    have hfree : (exampleWorld exampleAdmitted).item.run = none :=
      Option.isNone_iff_eq_none.mp (exampleWorld_item exampleAdmitted hadmitted).2.2.2
    obtain ⟨wake, hrow, -, -, -, hgeneration, hdelivery, -, hterminal, -⟩ := hwedged.row
    obtain ⟨delivery, hget, hclaimable⟩ := Option.map_eq_some_iff.mp exampleAdmitted_claimable
    have hpolled : Wedged (exampleCycle.reads exampleHost examplePlugin
        (exampleWorld exampleAdmitted)) (seconds 1 + seconds 15) :=
      @Wedged.poll _ _ (seconds 1) hwedged (by decide)
    have hread : Wedged (exampleCycle.prompts exampleHost examplePlugin
        (exampleWorld exampleAdmitted)) (seconds 1 + seconds 15) :=
      (@Wedged.advance _ _ (seconds 1) hpolled).2
    have hended : Wedged (exampleCycle.ends exampleHost examplePlugin
        (exampleWorld exampleAdmitted)) (seconds 1 + seconds 15) :=
      (@Wedged.advance _ _ (seconds 1) hread).2
    obtain ⟨view, hview⟩ : ∃ view, wake.view = some view := by
      rw [OpenCodeWake.view, hdelivery]
      exact ⟨_, rfl⟩
    have hunseen : view.observed [exampleIdle] = false := by
      simp [OpenCodeWakeView.observed, isInput, exampleIdle]
    have hnamed : view.deliveryId = exampleDeliveryId := by
      rw [OpenCodeWake.view, hdelivery] at hview
      rw [← Option.some.inj hview]
    have hcases := hsubmits (exampleWorld exampleAdmitted) exampleEndpoint wake view delivery
      (exampleWorld_reachable hadmitted) hwedged.endpoint hfree hrow hview (by omega) hterminal
      trivial (hnamed ▸ hget) exampleCycle
      ⟨hwedged.poll_succeeds (by decide), rfl, rfl, List.forall_mem_nil _, List.forall_mem_nil _⟩
      hclaimable (by rw [hpolled.history]; exact hunseen)
    rw [hended.history, hread.history] at hcases
    rcases hcases with happended | ⟨next, hnext, hless⟩
    · simp at happended
    · obtain ⟨found, hfound, -, -, -, hsame, -⟩ := hpolled.row
      obtain rfl := Option.some.inj (hfound.symm.trans hnext)
      omega

end Example

end Pallium.Relay
