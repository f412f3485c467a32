import Pallium.ClaudeWake.Operations
import Pallium.Core.Run

/-!
# Invariants of the registry programs

What every invariant of the registry needs of its programs, for any kinds of
faults: removing intent files, collecting and applying the intents of a
recovery, and what makes an attempt eligible.
-/

namespace Pallium.ClaudeWake

open Pallium.Faults
open Pallium.Faults.Process (Ensures)
open Pallium.Faults.Process.Ensures (bind write read)

/-- The machine of the first process over a directory. -/
def Machine.start (directory : Directory) : Machine := ⟨directory, load directory, []⟩

theorem Registration.key_reset (consumed : Registration) (result : ActivationAttemptResult) :
    key (consumed.reset result) = key consumed := by
  unfold Registration.reset
  split <;> rfl

theorem Registration.inflight_fresh {scope : Scope} {socketPath token : String} {generation : ℕ}
    {idle : Bool} {hvalid : validRegistration scope socketPath token = true} :
    (Registration.fresh scope socketPath token generation idle hvalid).inflight = false := by
  cases idle <;> rfl

section

variable (request : Registering)
  (hvalid : validRegistration request.scope request.socketPath request.token = true)
  (registry : Registry)
include hvalid

/-- A request renews the attempt in flight of its scope, or stores a fresh
registration. -/
theorem admitted_cases :
    (∃ existing hrenewed, registry.registrations.get request.scope = some existing ∧
        existing.inflight = true ∧
        admitted request hvalid registry =
          existing.renew request.socketPath request.token (registry.generation + 1) hrenewed) ∨
      ((∀ existing, registry.registrations.get request.scope = some existing →
          existing.inflight = false) ∧
        admitted request hvalid registry =
          .fresh request.scope request.socketPath request.token (registry.generation + 1)
            request.idle hvalid) := by
  unfold admitted
  split
  · next existing hget =>
      have hscope : existing.scope = request.scope := Table.key_of_get hget
      split
      · next hinflight =>
          exact Or.inl ⟨existing, hscope.symm ▸ hvalid, hget, hinflight, rfl⟩
      · next hsettled =>
          refine Or.inr ⟨fun found hfound => ?_, rfl⟩
          rw [hget, Option.some.injEq] at hfound
          rw [← hfound]
          exact Bool.eq_false_iff.mpr hsettled
  · next hnone =>
      refine Or.inr ⟨fun found hfound => ?_, rfl⟩
      rw [hnone] at hfound
      cases hfound

theorem scope_admitted : key (admitted request hvalid registry) = request.scope := by
  rcases admitted_cases request hvalid registry with ⟨existing, hrenewed, hget, -, hadmitted⟩ |
    ⟨-, hadmitted⟩
  · rw [hadmitted]
    change existing.scope = request.scope
    exact Table.key_of_get hget
  · rw [hadmitted]
    rfl

end

theorem Registration.inflight_reset (consumed : Registration) (result : ActivationAttemptResult) :
    (consumed.reset result).inflight = false := by
  unfold Registration.reset
  split <;> rfl

theorem Attempt.eligible_spec {call : Attempt} {registry : Registry}
    {found : Registration × TransportAnswer} (heligible : call.eligible registry = .ok found) :
    registry.registrations.get call.scope = some found.1 ∧ found.1.idle = true ∧
      (∀ current ∈ registry.registrations.rows, call.fencedBy current = false) ∧
      call.validReservation = true := by
  unfold Attempt.eligible at heligible
  split at heligible
  · cases heligible
  · split at heligible
    · next hreservation =>
      split at heligible
      · cases heligible
      · next registration hget =>
          split at heligible
          · next hidle =>
              split at heligible
              · cases heligible
              · next hunfenced =>
                  split at heligible
                  · cases heligible
                    exact ⟨hget, hidle, by simpa using hunfenced, hreservation⟩
                  · cases heligible
                  · cases heligible
          · cases heligible
    · cases heligible

section Invariants

variable {machine : Machine} {allowed : Fault → Prop} {invariant : Machine → Prop}
  {stop : Site → Machine → Prop} {around : Surroundings} {complete : Completion}

theorem ensures_discard {α β : Type} {program : Program α} {value : β}
    (hprogram : Ensures allowed program machine (fun _ => invariant) stop) :
    Ensures allowed (do let _ ← program; pure value) machine (fun _ => invariant) stop :=
  bind (hprogram.mono (fun _ _ hafter => Ensures.pure hafter) fun _ _ hstop => hstop)

/-- Removing an intent file keeps the invariant, and a process may stop wherever
it holds. -/
structure Undisturbed (invariant : Machine → Prop) (stop : Site → Machine → Prop) : Prop where
  unlinked : ∀ machine name, invariant machine → invariant (machine.onDirectory fun directory =>
    { directory with intents := directory.intents.filter fun file => file.1 != name })
  stops : ∀ site machine, invariant machine → stop site machine

namespace Undisturbed

variable (hundisturbed : Undisturbed invariant stop) (hstart : invariant machine)
include hundisturbed hstart

theorem unlinkIntent (name : String) :
    Ensures allowed (unlinkIntent name) machine (fun _ => invariant) stop :=
  write (hundisturbed.unlinked machine name hstart) (fun _ => hstart)
    fun _ => hundisturbed.stops _ machine hstart

theorem deleteIntent (around : Surroundings) (scope : Scope) (expectedIntentId : Json) :
    Ensures allowed (deleteIntent around scope expectedIntentId) machine (fun _ => invariant)
      stop := by
  refine bind (read ?_)
  simp only
  split
  · split
    · exact hundisturbed.unlinkIntent hstart _
    · exact Ensures.pure hstart
  · split
    · exact hundisturbed.unlinkIntent hstart _
    · exact Ensures.pure hstart

theorem unlinkNotice (name : String) (fields : List (String × Json)) :
    Ensures allowed (unlinkNotice name fields) machine (fun _ => invariant) stop := by
  refine bind (read ?_)
  split
  · exact ensures_discard (hundisturbed.unlinkIntent hstart name)
  · exact Ensures.pure hstart

theorem unlinkLegacy (intent : PendingIntent) :
    Ensures allowed (unlinkLegacy intent) machine (fun _ => invariant) stop := by
  refine bind (read ?_)
  split
  · exact ensures_discard (hundisturbed.unlinkIntent hstart _)
  · exact Ensures.pure hstart

end Undisturbed

/-- The machine once the registration of the scope is taken from the registry and its file. -/
def Machine.without (machine : Machine) (scope : Scope) : Machine :=
  (machine.onDirectory fun directory => { directory with
    canonical := some (payloadOf (machine.registry.registrations.erase scope)) }).hold
      (machine.registry.registrations.erase scope)

/-- No attempt of the scope is in flight. -/
def Machine.Settled (machine : Machine) (scope : Scope) : Prop :=
  ∀ found, machine.registry.registrations.get scope = some found → found.inflight = false

/-- Removing a settled registration keeps the invariant as well. -/
structure Removable (invariant : Machine → Prop) (stop : Site → Machine → Prop) : Prop
    extends Undisturbed invariant stop where
  removed : ∀ machine scope, machine.Settled scope → invariant machine →
    invariant (machine.without scope)

namespace Removable

variable (hremovable : Removable invariant stop) (hstart : invariant machine)
include hremovable hstart

theorem removeRegistration (around : Surroundings) {scope : Scope} (expectedIntentId : Json)
    (hsettled : machine.Settled scope) :
    Ensures allowed (removeRegistration around scope expectedIntentId) machine
      (fun _ => invariant) stop := by
  refine bind (read ?_)
  refine bind (write ?_ (fun _ => Ensures.pure hstart)
    fun _ => hremovable.stops _ _ hstart)
  refine bind (Ensures.change ?_)
  exact ensures_discard
    (hremovable.deleteIntent (hremovable.removed _ _ hsettled hstart) _ _ _)

theorem remove (scope : Scope) :
    Ensures allowed (remove around scope) machine (fun _ => invariant) stop := by
  unfold ClaudeWake.remove
  split
  · exact Ensures.pure hstart
  · refine bind (read ?_)
    split
    · exact Ensures.pure hstart
    · next registration hget =>
        split
        · exact Ensures.pure hstart
        · next hsettled =>
            refine hremovable.removeRegistration hstart around .null fun found hfound => ?_
            rw [hget, Option.some.injEq] at hfound
            simpa [hfound] using hsettled

theorem close (scope : Scope) (intentId : Json) :
    Ensures allowed (close around scope intentId) machine (fun _ => invariant) stop := by
  unfold ClaudeWake.close
  split
  · exact Ensures.pure hstart
  · refine bind (read ?_)
    split
    · exact Ensures.pure hstart
    · split
      · simp only
        split
        · exact ensures_discard (hremovable.deleteIntent hstart _ _ _)
        · split
          · exact ensures_discard (hremovable.deleteIntent hstart _ _ _)
          · next hsettled =>
              refine hremovable.removeRegistration hstart around intentId fun found hfound => ?_
              simpa [hfound] using hsettled
      · exact Ensures.pure hstart

theorem recoverRevocation (name : String) (fields : List (String × Json)) :
    Ensures allowed (recoverRevocation around name fields) machine (fun _ => invariant) stop := by
  unfold ClaudeWake.recoverRevocation
  split
  · exact Ensures.pure hstart
  · next scope _ _ =>
      split
      · exact Ensures.pure hstart
      · refine bind (read ?_)
        split
        · exact hremovable.unlinkNotice hstart name fields
        · next current hget =>
            split
            · split
              · exact Ensures.pure hstart
              · split
                · exact hremovable.unlinkNotice hstart name fields
                · next hsettled =>
                    have hremoved := hremovable.removed machine scope (fun found hfound => by
                      rw [hget, Option.some.injEq] at hfound
                      simpa [hfound] using hsettled) hstart
                    refine bind (write ?_ (fun _ => Ensures.pure hstart)
                      fun _ => hremovable.stops _ _ hstart)
                    refine bind (Ensures.change ?_)
                    exact hremovable.unlinkNotice hremoved name fields
            · exact hremovable.unlinkNotice hstart name fields

theorem applyScoped (intent : PendingIntent) (hregister : ∀ request,
      Ensures allowed (register around request complete) machine (fun _ => invariant) stop) :
    Ensures allowed (applyScoped around complete intent) machine (fun _ => invariant) stop := by
  unfold ClaudeWake.applyScoped
  split
  · split
    · exact Ensures.pure hstart
    · exact bind ((hremovable.close hstart _ _).mono
        (fun _ _ hafter => Ensures.pure hafter) fun _ _ hstop => hstop)
  · split
    · exact Ensures.pure hstart
    · exact hregister _

/-- When the rewritten file cannot be stored, the registry refuses what it read. -/
theorem applyLegacy (applied : List Scope) (intent : PendingIntent)
    (hrefused : allowed .fails → ∀ scope, machine.Settled scope →
      Ensures allowed refuseRehydration (machine.hold (machine.registry.registrations.erase scope))
        (fun _ => invariant) stop) :
    Ensures allowed (applyLegacy applied intent) machine (fun _ => invariant) stop := by
  refine bind (read ?_)
  split
  · next hfences =>
      have hsettled : machine.Settled intent.scope := by
        intro found hfound
        rw [hfound, Bool.and_eq_true] at hfences
        simpa using hfences.2
      refine bind (write ?_ (fun hfails => ?_)
        fun _ => hremovable.stops _ _ hstart)
      · refine bind (Ensures.change ?_)
        exact hremovable.unlinkLegacy (hremovable.removed _ _ hsettled hstart) intent
      · exact bind (Ensures.change (hrefused hfails intent.scope hsettled))
  · exact hremovable.unlinkLegacy hstart intent

end Removable

/-- The intent was read from one of the files. -/
structure PendingIntent.From (around : Surroundings) (files : List (String × Json))
    (intent : PendingIntent) : Prop where
  file : (intent.name, .object intent.fields) ∈ files
  scope_eq : scopeOf intent.fields = some intent.scope
  exact_eq : intent.exactScope = (intent.name == safeSessionFile around intent.scope)
  unattributed : Json.has intent.fields "actor_ref" = false
  noNotice : "revoke-".toList.isPrefixOf intent.name.toList = false

theorem PendingIntent.From.mono {files more : List (String × Json)} {intent : PendingIntent}
    (hfrom : intent.From around files) (hfiles : files ⊆ more) : intent.From around more :=
  { hfrom with file := hfiles hfrom.file }

theorem ensures_collectIntents (hrevocation : ∀ current name fields, invariant current →
      Ensures allowed (recoverRevocation around name fields) current (fun _ => invariant) stop)
    (files : List (String × Json)) (hstart : invariant machine) :
    Ensures allowed (collectIntents around files) machine
      (fun found after => invariant after ∧ ∀ intent ∈ found, intent.From around files) stop := by
  induction files generalizing machine with
  | nil => exact Ensures.pure ⟨hstart, fun _ hintent => (List.not_mem_nil hintent).elim⟩
  | cons file files ih =>
    obtain ⟨name, value⟩ := file
    have hrest : ∀ current, invariant current →
        Ensures allowed (collectIntents around files) current
          (fun found after => invariant after ∧
            ∀ intent ∈ found, intent.From around ((name, value) :: files)) stop :=
      fun current hcurrent => (ih hcurrent).mono
        (fun _ _ hafter => ⟨hafter.1, fun intent hintent =>
          (hafter.2 intent hintent).mono (List.subset_cons_self _ _)⟩)
        fun _ _ hstop => hstop
    unfold collectIntents
    split
    · exact hrest machine hstart
    · next fields hfields =>
        split
        · exact hrest machine hstart
        · next hunattributed =>
            split
            · exact bind ((hrevocation machine name fields hstart).mono
                (fun _ after hafter => hrest after hafter) fun _ _ hstop => hstop)
            · next hnotice =>
                split
                · exact hrest machine hstart
                · next scope hscope =>
                    refine bind ((hrest machine hstart).mono ?_ fun _ _ hstop => hstop)
                    rintro found after ⟨hafter, hfound⟩
                    refine Ensures.pure ⟨hafter, fun intent hintent => ?_⟩
                    rcases List.mem_cons.mp hintent with rfl | htail
                    · refine ⟨?_, hscope, rfl, Bool.eq_false_iff.mpr hunattributed,
                        Bool.eq_false_iff.mpr hnotice⟩
                      have hvalue : value = .object fields := by
                        cases value with
                        | object _ => cases hfields; rfl
                        | _ => cases hfields
                      rw [hvalue]
                      exact List.mem_cons_self
                    · exact hfound intent htail

/-- Applying intents keeps what applying each of them keeps. -/
theorem ensures_applyIntents {admissible : PendingIntent → Prop}
    (hscoped : ∀ current intent, admissible intent → intent.exactScope = true →
      invariant current →
      Ensures allowed (applyScoped around complete intent) current (fun _ => invariant) stop)
    (hlegacy : ∀ current applied intent, admissible intent → intent.exactScope = false →
      invariant current →
      Ensures allowed (applyLegacy applied intent) current (fun _ => invariant) stop)
    (applied : List Scope) (intents : List PendingIntent)
    (hintents : ∀ intent ∈ intents, admissible intent) (hstart : invariant machine) :
    Ensures allowed (applyIntents around complete applied intents) machine
      (fun _ => invariant) stop := by
  induction intents generalizing machine applied with
  | nil => exact Ensures.pure hstart
  | cons intent rest ih =>
    have hintent := hintents intent List.mem_cons_self
    have hrest : ∀ current applied, invariant current →
        Ensures allowed (applyIntents around complete applied rest) current
          (fun _ => invariant) stop :=
      fun current applied => ih applied (List.forall_mem_cons.mp hintents).2
    unfold applyIntents
    split
    · next hexact =>
        refine bind ((hscoped machine intent hintent hexact hstart).mono ?_
          fun _ _ hstop => hstop)
        intro answer after hafter
        split
        · exact hrest after _ hafter
        · exact hrest after _ hafter
        · exact hrest after _ hafter
        · exact Ensures.pure hafter
    · next hexact =>
        refine bind ((hlegacy machine applied intent hintent (by simpa using hexact)
          hstart).mono ?_ fun _ _ hstop => hstop)
        exact fun _ after hafter => hrest after applied hafter

/-- The recovery keeps what revocations and each intent of the directory keep. -/
theorem ensures_recoverIntents (hrevocation : ∀ current name fields, invariant current →
      Ensures allowed (recoverRevocation around name fields) current (fun _ => invariant) stop)
    (hscoped : ∀ current intent, intent.From around machine.directory.intents →
      intent.exactScope = true → invariant current →
      Ensures allowed (applyScoped around complete intent) current (fun _ => invariant) stop)
    (hlegacy : ∀ current applied intent, intent.From around machine.directory.intents →
      intent.exactScope = false → invariant current →
      Ensures allowed (applyLegacy applied intent) current (fun _ => invariant) stop)
    (hstart : invariant machine) :
    Ensures allowed (recoverIntents around complete) machine (fun _ => invariant) stop := by
  refine bind (read ?_)
  split
  · refine bind ((ensures_collectIntents hrevocation _ hstart).mono ?_
      fun _ _ hstop => hstop)
    rintro found after ⟨hafter, hfound⟩
    refine ensures_applyIntents hscoped hlegacy [] _ (fun intent hintent => ?_) hafter
    rcases List.mem_append.mp hintent with hfirst | hsecond
    · exact hfound intent (List.mem_of_mem_filter hfirst)
    · exact hfound intent (List.mem_of_mem_filter hsecond)
  · exact Ensures.pure hstart

theorem Removable.recoverIntents (hremovable : Removable invariant stop)
    (hregister : ∀ current request, invariant current →
      Ensures allowed (register around request complete) current (fun _ => invariant) stop)
    (hrefused : allowed .fails → ∀ current scope, current.Settled scope → invariant current →
      Ensures allowed refuseRehydration (current.hold (current.registry.registrations.erase scope))
        (fun _ => invariant) stop) (hstart : invariant machine) :
    Ensures allowed (recoverIntents around complete) machine (fun _ => invariant) stop :=
  ensures_recoverIntents
    (fun _ name fields hcurrent => hremovable.recoverRevocation hcurrent name fields)
    (fun current intent _ _ hcurrent =>
      hremovable.applyScoped hcurrent intent fun request => hregister current request hcurrent)
    (fun current applied intent _ _ hcurrent => hremovable.applyLegacy hcurrent applied intent
      fun hfails scope hsettled => hrefused hfails current scope hsettled hcurrent) hstart

end Invariants

section Examples

/-- Surroundings without another process, whose digest is the text itself. -/
def quietSurroundings : Surroundings := ⟨id, fun _ => false, fun _ => false, true, 0⟩

def session (name : String) : Scope := ⟨runtimeName, name, "container"⟩

def request (name : String) : Registering := ⟨session name, "socket", "token", true, "intent"⟩

def intentFile (name : String) : String × Json :=
  (safeSessionFile quietSurroundings (session name), .object
    [("runtime", .string runtimeName), ("session_ref", .string name),
      ("container_ref", .string "container"), ("socket_path", .string "socket"),
      ("token", .string "token"), ("idle", .bool true), ("intent_id", .string "intent")])

def endpoint : String := "relay-session-00000000000000000000000000000001"

/-- An operation none of whose writes fails. -/
def undisturbed (operation : Operation) : Step := ⟨operation, quietSurroundings, []⟩

/-- Register a session as idle. -/
def registering (name : String) : Step := undisturbed (.register (request name) .proceeds)

/-- An attempt that its transport accepts. -/
def waking (name delivery : String) : Step :=
  undisturbed (.attempt ⟨session name, some .accepted, some delivery, some endpoint, .pending⟩)

/-- A directory with the intents of two sessions. -/
def twoSessions : Directory := ⟨none, false, [intentFile "first", intentFile "second"]⟩

end Examples

end Pallium.ClaudeWake
