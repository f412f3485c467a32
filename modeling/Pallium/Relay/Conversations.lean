import Pallium.Relay.Repeats

/-!
# Conversations

A reply is stored after the message it answers, and neither changes afterwards.  So the way
from reply to parent leads from every message to one that opened its conversation.
-/

namespace Pallium.Relay

open Pallium.Run Relation

variable {store after : RelayStore} {messageId root : String}

def Answers (store : RelayStore) (messageId parent : String) : Prop :=
  (store.messages.get messageId).bind RelayMessage.inReplyTo = some parent

/-- The way from reply to parent leads from the message to one that answers none. -/
def OpenedBy (store : RelayStore) (messageId root : String) : Prop :=
  ReflTransGen (Answers store) messageId root ∧
    ∃ message, store.messages.get root = some message ∧ message.inReplyTo = none

theorem OpenedBy.last (hopened : OpenedBy store messageId root) (next : String) :
    ¬ Answers store root next := by
  obtain ⟨-, message, hget, hnone⟩ := hopened
  intro hanswers
  rw [Answers, hget, Option.bind_some, hnone] at hanswers
  cases hanswers

theorem OpenedBy.unique {other : String} (hopened : OpenedBy store messageId root)
    (hother : OpenedBy store messageId other) : other = root := by
  have hunique : Relator.RightUnique (Answers store) := fun _ _ _ hfirst hsecond =>
    Option.eq_some_unique hfirst hsecond
  rcases ReflTransGen.total_of_right_unique hunique hopened.1 hother.1 with hleads | hleads
  · exact (reflTransGen_iff_eq hopened.last).mp hleads
  · exact ((reflTransGen_iff_eq hother.last).mp hleads).symm

theorem OpenedBy.grow (hopened : OpenedBy store messageId root)
    (hgrow : MessagesGrow store after) : OpenedBy after messageId root := by
  obtain ⟨hleads, message, hget, hnone⟩ := hopened
  refine ⟨ReflTransGen.mono (fun child parent hanswers => ?_) _ _ hleads, message,
    hgrow.kept hget, hnone⟩
  obtain ⟨reply, hreply, hparent⟩ := Option.bind_eq_some_iff.mp hanswers
  exact Option.bind_eq_some_iff.mpr ⟨reply, hgrow.kept hreply, hparent⟩

/-- Every stored message belongs to a conversation that a stored message opened. -/
def Opened (store : RelayStore) : Prop :=
  ∀ messageId message, store.messages.get messageId = some message →
    ∃ root, OpenedBy store messageId root

theorem Opened.grow (hopened : Opened store) (hgrow : MessagesGrow store after) :
    Opened after := by
  intro messageId message hget
  have hold : ∀ oldId old, store.messages.get oldId = some old →
      ∃ root, OpenedBy after oldId root := fun oldId old hold =>
    (hopened oldId old hold).imp fun _ hroot => hroot.grow hgrow
  rcases id hgrow with hsame | ⟨added, -, hmessages, hstored⟩
  · exact hold messageId message (hsame ▸ hget)
  · have hadded := hget
    rw [hmessages] at hadded
    split at hadded
    · obtain rfl := Option.some.inj hadded
      cases hparent : added.inReplyTo with
      | none => exact ⟨messageId, .refl, added, hget, hparent⟩
      | some parent =>
        obtain ⟨original, horiginal⟩ := hstored parent hparent
        obtain ⟨root, hleads, hroot⟩ := hold parent original horiginal
        have hanswers : Answers after messageId parent := by
          rw [Answers, hget, Option.bind_some, hparent]
        exact ⟨root, hleads.head hanswers, hroot⟩
    · exact hold messageId message hadded

/-- In every run, each stored message belongs to the conversation of exactly one message,
which remains the same whatever follows. -/
theorem conversation_root (host : Host) {ops : List RelayOp} {message : RelayMessage}
    (hget : (reached host ops).messages.get messageId = some message) :
    ∃ root, ∀ later other,
      OpenedBy (reached host (ops ++ later)) messageId other ↔ other = root := by
  have hopened : Opened (reached host ops) :=
    run_invariant (fun _ _ hget => nomatch hget)
      (fun _ op hbefore => Opened.grow hbefore (RelayOp.step_grow op)) ops
  obtain ⟨root, hroot⟩ := hopened messageId message hget
  have hlater : ∀ later, OpenedBy (reached host (ops ++ later)) messageId root := by
    intro later
    rw [reached, run_append]
    exact @run_invariant _ _ _ (OpenedBy · messageId root) _ hroot
      (fun _ op hbefore => hbefore.grow op.step_grow) later
  exact ⟨root, fun later other =>
    ⟨fun hother => (hlater later).unique hother, fun hsame => hsame ▸ hlater later⟩⟩

/-- The answer to a message belongs to one conversation. -/
theorem conversation_root_answer :
    ∃ root, ∀ later other, OpenedBy (reached exampleHost (exampleReplied ++ later))
      (replyId exampleHost exampleDeliveryId) other ↔ other = root := by
  have hstored : ((reached exampleHost exampleReplied).messages.get
      (replyId exampleHost exampleDeliveryId)).isSome := by
    decide
  obtain ⟨message, hget⟩ := Option.isSome_iff_exists.mp hstored
  exact conversation_root exampleHost hget

end Pallium.Relay
