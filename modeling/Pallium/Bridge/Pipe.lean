import Mathlib

/-!
# Polled reads of the bridge pipe

All operations on the pipe are overlapped: a call submits one, polls its event until a deadline
and cancels what is still pending.  A read that completes while it is being cancelled has taken
its message out of the pipe, so the message is kept for the next read.  The script of a call
holds what the clock, the stop flag and the native calls answer, and the message, if any, that
the native read has taken.  Over any sequence of calls the messages handed out since the last
accept, followed by the one that is kept, are the messages taken, in their order.
-/

namespace Pallium.Bridge

def maxMessage : ℕ := 32 * 1024

/-- The categories of `ShadowUnavailable` that the calls raise. -/
inductive Category
  | stopped
  | deadline
  | transportFailed
  | peerClosed
  | messageLimit
  | invalidMessage
deriving DecidableEq, Repr

/-- An exception of a native call: whether it is of the library's error type, and its
`winerror`. -/
structure NativeError where
  native : Bool
  winerror : Option ℕ
deriving DecidableEq, Repr

/-- What one look at the stop flag and the clock finds. -/
structure Gate where
  stopped : Bool
  late : Bool
deriving DecidableEq, Repr

/-- What waiting for the event answers; failing and raising are alike to the caller. -/
inductive Wait
  | object0
  | timeout
  | failed
deriving DecidableEq, Repr

/-- `GetOverlappedResult`. -/
inductive Query
  | count (count : ℕ)
  | raised (error : NativeError)
deriving DecidableEq, Repr

/-- The submission of the native operation. -/
inductive Issue
  | code (code : ℕ)
  | raised (error : NativeError)
deriving DecidableEq, Repr

/-- One round of the polling loop. -/
structure Round where
  gate : Gate
  wait : Wait
deriving DecidableEq, Repr

/-- The cancellation of a pending operation. -/
structure Drain where
  cancelled : Bool
  wait : Wait
  result : Query
  stopped : Bool
  /-- Another pipe of the process has an unresolved cancellation. -/
  uncertain : Bool
deriving DecidableEq, Repr

/-- The bytes that a native read has put into its buffer. -/
structure Message where
  count : ℕ
  buffer : List UInt8
deriving DecidableEq, Repr

/-- The results of a terminated operation: `{38, 109, 232, 233, 234, 995}`. -/
def NativeError.terminal (error : NativeError) : Bool :=
  error.native && (error.winerror.any fun code => code ∈ [38, 109, 232, 233, 234, 995])

/-- What happens during one call.  After the rounds the deadline has passed. -/
structure Script where
  gate : Gate
  uncertain : Bool
  issue : Issue
  buffer : List UInt8
  rounds : List Round
  endStopped : Bool
  result : Query
  drain : Drain
  /-- The message that the submitted read has taken by the end of the call. -/
  taken : Option Message
  /-- A count is reported of an operation that has completed, a terminal error of one that has
  not. -/
  reported : ∀ count, result = .count count ∨ drain.result = .count count →
    taken = some ⟨count, buffer⟩
  terminated : ∀ error, drain.result = .raised error → error.terminal = true → taken = none

/-- `_PipeIO`, with the flag `_native_uncertain` of its process. -/
structure Pipe where
  isOpen : Bool
  unresolved : Bool
  uncertain : Bool
  completedRead : Option Message
deriving DecidableEq, Repr

section Operation

/-- `while pending`: the event is signalled, or the loop is left by an error. -/
def poll (endStopped : Bool) : List Round → Except Category Unit
  | [] => .error (if endStopped then .stopped else .deadline)
  | round :: rest =>
    if round.gate.stopped then .error .stopped
    else if round.gate.late then .error .deadline
    else match round.wait with
      | .object0 => .ok ()
      | .timeout => poll endStopped rest
      | .failed => .error .transportFailed

/-- The outcome of the `try` block and its handlers, with the variables that `finally` reads. -/
structure Tried where
  result : Except Category Message
  pending : Bool
  completed : Bool

/-- The submission, the polling and the first query. -/
def attempt (connectedOk isOpen : Bool) (script : Script) : Tried :=
  -- a closed handle is `None`, which no native call accepts
  match if isOpen then script.issue else .raised ⟨false, none⟩ with
  | .raised error =>
    if connectedOk && error.native && error.winerror == some 535 then
      ⟨.ok ⟨0, []⟩, false, true⟩
    else if connectedOk && error.native && error.winerror == some 232 then
      ⟨.error .peerClosed, false, true⟩
    else ⟨.error .transportFailed, false, false⟩
  | .code code =>
    if connectedOk && code == 535 then ⟨.ok ⟨0, []⟩, false, true⟩
    else if connectedOk && code == 232 then ⟨.error .peerClosed, false, true⟩
    else if code ≠ 0 ∧ code ≠ 997 then ⟨.error .transportFailed, false, true⟩
    else match if code = 997 then poll script.endStopped script.rounds else .ok () with
      | .error category => ⟨.error category, code = 997, false⟩
      | .ok () =>
        match script.result with
        | .count count => ⟨.ok ⟨count, script.buffer⟩, code = 997, true⟩
        | .raised error =>
          if connectedOk && error.native && error.winerror == some 232 then
            ⟨.error .peerClosed, code = 997, true⟩
          else ⟨.error .transportFailed, code = 997, error.terminal⟩

/-- The cancellation could not be confirmed. -/
def Pipe.lose (pipe : Pipe) : Pipe := { pipe with unresolved := true, uncertain := true }

/-- `finally`: a pending operation is cancelled, and what a read past its deadline has taken
meanwhile is kept. -/
def Pipe.finish (pipe : Pipe) (retainRead : Bool) (script : Script) (tried : Tried) : Pipe :=
  if tried.pending && !tried.completed then
    let readDeadline := retainRead && match tried.result with
      | .error category => category == .deadline
      | .ok _ => false
    let seen := { pipe with uncertain := pipe.uncertain || script.drain.uncertain }
    if script.drain.cancelled && script.drain.wait == .object0 then
      match script.drain.result with
      | .count count =>
        if readDeadline && !script.drain.stopped && !seen.unresolved && !seen.uncertain &&
            seen.completedRead.isNone then
          { seen with completedRead := some ⟨count, script.buffer⟩ }
        else seen
      | .raised error => if error.terminal then seen else seen.lose
    else seen.lose
  else pipe

/-- The flag of the process, as the call sees it. -/
def Pipe.see (pipe : Pipe) (uncertain : Bool) : Pipe :=
  { pipe with uncertain := pipe.uncertain || uncertain }

def Pipe.operation (connectedOk retainRead : Bool) (script : Script) (pipe : Pipe) :
    Except Category Message × Pipe :=
  if script.gate.stopped then (.error .stopped, pipe)
  else if script.gate.late then (.error .deadline, pipe)
  else
    let seen := pipe.see script.uncertain
    match if retainRead then seen.completedRead else none with
    | some message =>
      if seen.unresolved || seen.uncertain then (.error .stopped, seen)
      else (.ok message, { seen with completedRead := none })
    | none =>
      let tried := attempt connectedOk seen.isOpen script
      (tried.result, seen.finish retainRead script tried)

/-- A reused server handle must not carry bytes across peers. -/
def Pipe.accept (script : Script) (pipe : Pipe) : Except Category Unit × Pipe :=
  let (result, after) := { pipe with completedRead := none }.operation true false script
  (result.map fun _ => (), after)

/-- `_json`, with the parser of objects left open. -/
def json {α : Type} (parse : List UInt8 → Option α) (raw : List UInt8) : Except Category α :=
  if raw = [] ∨ maxMessage < raw.length then .error .messageLimit
  else match parse raw with
    | some value => .ok value
    | none => .error .invalidMessage

/-- What a read makes of a message: its value, or a report of what is wrong with it. -/
def report {α : Type} (parse : List UInt8 → Option α) (message : Message) : Except Category α :=
  if maxMessage < message.count then .error .messageLimit
  else json parse (message.buffer.take message.count)

def Pipe.read {α : Type} (parse : List UInt8 → Option α) (script : Script) (pipe : Pipe) :
    Except Category α × Pipe :=
  match pipe.operation false true script with
  | (.ok message, after) => (report parse message, after)
  | (.error category, after) => (.error category, after)

/-- `write`, of so many encoded bytes. -/
def Pipe.write (length : ℕ) (script : Script) (pipe : Pipe) : Except Category Unit × Pipe :=
  if maxMessage < length then (.error .messageLimit, pipe)
  else match pipe.operation false false script with
    | (.ok message, after) =>
      (if message.count = length then .ok () else .error .transportFailed, after)
    | (.error category, after) => (.error category, after)

def Pipe.close (pipe : Pipe) : Pipe :=
  if pipe.unresolved then pipe else { pipe with completedRead := none, isOpen := false }

end Operation

section History

/-- A call on the pipe, or an unresolved cancellation of another pipe. -/
inductive Call
  | accept (script : Script)
  | read (script : Script)
  | write (length : ℕ) (script : Script)
  | close
  | uncertain

/-- The messages since the last accept: those that reads have taken out of the pipe, and those
that reads have returned or reported. -/
structure Log where
  arrived : List Message
  handed : List Message
deriving DecidableEq, Repr

/-- A read gets to submit a native one. -/
def Pipe.submits (pipe : Pipe) (script : Script) : Bool :=
  !script.gate.stopped && !script.gate.late && pipe.completedRead.isNone && pipe.isOpen

/-- A read gives up its message: it was stopped, a native call failed, or a cancellation was not
resolved. -/
def Excused (script : Script) (result : Except Category Message) (after : Pipe) : Prop :=
  match result with
  | .ok _ => False
  | .error .deadline => script.drain.stopped = true ∨ after.unresolved = true ∨
      after.uncertain = true
  | .error _ => True

instance (script : Script) (result : Except Category Message) (after : Pipe) :
    Decidable (Excused script result after) := by
  unfold Excused
  split <;> infer_instance

/-- The message that a read has taken and has to answer for. -/
def Pipe.arrival (pipe : Pipe) (script : Script) : List Message :=
  let (result, after) := pipe.operation false true script
  if pipe.submits script ∧ ¬ Excused script result after then script.taken.toList else []

/-- The message that a read returns or reports. -/
def Pipe.handing (pipe : Pipe) (script : Script) : List Message :=
  match (pipe.operation false true script).1 with
  | .ok message => [message]
  | .error _ => []

def Call.step (pipe : Pipe) : Call → Pipe
  | .accept script => (pipe.accept script).2
  | .read script => (pipe.operation false true script).2
  | .write length script => (pipe.write length script).2
  | .close => pipe.close
  | .uncertain => { pipe with uncertain := true }

/-- The pipe and its log after a call. -/
def Call.apply (state : Pipe × Log) (call : Call) : Pipe × Log :=
  (call.step state.1, match call with
    | .accept _ => ⟨[], []⟩
    | .read script =>
      ⟨state.2.arrived ++ state.1.arrival script, state.2.handed ++ state.1.handing script⟩
    | .write _ _ => state.2
    | .close => if state.1.unresolved then state.2 else ⟨[], []⟩
    | .uncertain => state.2)

/-- The messages that the reads among the calls have taken. -/
def Pipe.taken (pipe : Pipe) : List Call → List Message
  | [] => []
  | call :: rest =>
    (match call with
      | .read script => pipe.arrival script
      | _ => []) ++ (call.step pipe).taken rest

/-- The messages that the reads among the calls have returned or reported. -/
def Pipe.given (pipe : Pipe) : List Call → List Message
  | [] => []
  | call :: rest =>
    (match call with
      | .read script => pipe.handing script
      | _ => []) ++ (call.step pipe).given rest

/-- A pipe that has just been made. -/
def newPipe : Pipe := ⟨true, false, false, none⟩

def runCalls (calls : List Call) : Pipe × Log :=
  calls.foldl Call.apply (newPipe, ⟨[], []⟩)

end History

section Facts

variable {pipe : Pipe} {script : Script} {isOpen : Bool} {message : Message}

variable {tried : Tried}

theorem read_snd {α : Type} (parse : List UInt8 → Option α) (script : Script) (pipe : Pipe) :
    (pipe.read parse script).2 = (pipe.operation false true script).2 := by
  unfold Pipe.read
  cases hoperation : pipe.operation false true script with
  | mk result after => cases result <;> rfl

theorem handed_eq {α : Type} (parse : List UInt8 → Option α)
    (hhanding : message ∈ pipe.handing script) :
    (pipe.read parse script).1 = report parse message := by
  unfold Pipe.handing at hhanding
  unfold Pipe.read
  cases hoperation : pipe.operation false true script with
  | mk result after =>
    rw [hoperation] at hhanding
    cases result with
    | ok found => rw [List.mem_singleton.mp hhanding]
    | error category => exact absurd hhanding List.not_mem_nil

theorem attempt_ok (hresult : (attempt false isOpen script).result = .ok message) :
    (attempt false isOpen script).completed = true ∧ isOpen = true ∧
      script.taken = some message := by
  unfold attempt at hresult ⊢
  cases isOpen with
  | false => simp at hresult
  | true =>
    cases hissue : script.issue with
    | raised error => simp [hissue] at hresult
    | code code =>
      simp only [hissue, Bool.false_and, Bool.false_eq_true, if_false, if_true] at hresult ⊢
      by_cases hcode : code ≠ 0 ∧ code ≠ 997
      · rw [if_pos hcode] at hresult
        exact nomatch hresult
      · rw [if_neg hcode] at hresult ⊢
        cases hpoll : if code = 997 then poll script.endStopped script.rounds else .ok () with
        | error category =>
          rw [hpoll] at hresult
          exact nomatch hresult
        | ok _ =>
          rw [hpoll] at hresult
          cases hquery : script.result with
          | count count =>
            simp only [hquery, Except.ok.injEq] at hresult ⊢
            exact ⟨trivial, trivial, hresult ▸ script.reported count (Or.inl hquery)⟩
          | raised error => simp [hquery] at hresult

theorem attempt_deadline (hresult : (attempt false isOpen script).result = .error .deadline) :
    (attempt false isOpen script).pending = true ∧
      (attempt false isOpen script).completed = false ∧ isOpen = true := by
  unfold attempt at hresult ⊢
  cases isOpen with
  | false => simp at hresult
  | true =>
    cases hissue : script.issue with
    | raised error => simp [hissue] at hresult
    | code code =>
      simp only [hissue, Bool.false_and, Bool.false_eq_true, if_false, if_true] at hresult ⊢
      by_cases hcode : code ≠ 0 ∧ code ≠ 997
      · rw [if_pos hcode] at hresult
        exact nomatch hresult
      · rw [if_neg hcode] at hresult ⊢
        by_cases hpending : code = 997
        · rw [if_pos hpending] at hresult ⊢
          cases hpoll : poll script.endStopped script.rounds with
          | error category => simp [hpending]
          | ok _ =>
            rw [hpoll] at hresult
            cases hquery : script.result with
            | count count => simp [hquery] at hresult
            | raised error => simp [hquery] at hresult
        · rw [if_neg hpending] at hresult
          cases hquery : script.result with
          | count count => simp [hquery] at hresult
          | raised error => simp [hquery] at hresult

theorem finish_completed (retainRead : Bool) (hcompleted : tried.completed = true) :
    pipe.finish retainRead script tried = pipe := by
  rw [Pipe.finish, hcompleted, Bool.not_true, Bool.and_false, if_neg Bool.false_ne_true]

theorem finish_of_ne (script : Script) {category : Category} (hnone : pipe.completedRead = none)
    (hresult : tried.result = .error category) (hne : category ≠ .deadline) :
    (pipe.finish true script tried).completedRead = none := by
  have hflag : (category == Category.deadline) = false := by
    simpa using hne
  unfold Pipe.finish
  simp only [hresult, hflag, Bool.and_false, Bool.false_and, Bool.false_eq_true, if_false]
  split
  · split
    · split
      · exact hnone
      · split
        · exact hnone
        · exact hnone
    · exact hnone
  · exact hnone

theorem finish_of_deadline (script : Script) (hnone : pipe.completedRead = none)
    (hresult : tried.result = .error .deadline) (hpending : tried.pending = true)
    (hcompleted : tried.completed = false) :
    (pipe.finish true script tried).completedRead.toList =
      if Excused script (.error .deadline) (pipe.finish true script tried) then []
      else script.taken.toList := by
  have hlost : ∀ {lost : Pipe}, pipe.finish true script tried = lost.lose →
      lost.completedRead = none →
      (pipe.finish true script tried).completedRead.toList =
        if Excused script (.error .deadline) (pipe.finish true script tried) then []
        else script.taken.toList := by
    intro lost hfinish hlost
    have hexcused : Excused script (.error .deadline) (pipe.finish true script tried) :=
      Or.inr (Or.inl (hfinish ▸ rfl))
    rw [if_pos hexcused, hfinish]
    exact congrArg Option.toList hlost
  have hunfold : pipe.finish true script tried =
      (let seen := { pipe with uncertain := pipe.uncertain || script.drain.uncertain }
       if script.drain.cancelled && script.drain.wait == .object0 then
         match script.drain.result with
         | .count count =>
           if !script.drain.stopped && !seen.unresolved && !seen.uncertain then
             { seen with completedRead := some ⟨count, script.buffer⟩ }
           else seen
         | .raised error => if error.terminal then seen else seen.lose
       else seen.lose) := by
    simp [Pipe.finish, hresult, hpending, hcompleted, hnone]
  by_cases hdrain : (script.drain.cancelled && script.drain.wait == .object0) = true
  · rw [if_pos hdrain] at hunfold
    cases hquery : script.drain.result with
    | count count =>
      rw [hquery] at hunfold
      by_cases hkeeps : (!script.drain.stopped && !pipe.unresolved &&
          !(pipe.uncertain || script.drain.uncertain)) = true
      · have hafter := hunfold.trans (if_pos hkeeps)
        have htaken := script.reported count (Or.inr hquery)
        simp only [Bool.and_eq_true, Bool.not_eq_true'] at hkeeps
        obtain ⟨⟨hstopped, hresolved⟩, hcertain⟩ := hkeeps
        have hanswers : ¬ Excused script (.error .deadline)
            (pipe.finish true script tried) := by
          rw [hafter]
          rintro (hstop | hunresolved | huncertain)
          · exact nomatch hstop.symm.trans hstopped
          · exact nomatch hunresolved.symm.trans hresolved
          · exact nomatch huncertain.symm.trans hcertain
        rw [if_neg hanswers, hafter, htaken]
      · have hafter := hunfold.trans (if_neg hkeeps)
        have hexcused : Excused script (.error .deadline)
            (pipe.finish true script tried) := by
          rw [hafter]
          simp only [Bool.and_eq_true, Bool.not_eq_true', not_and_or, Bool.not_eq_false]
            at hkeeps
          rcases hkeeps with (hstopped | hunresolved) | huncertain
          · exact Or.inl hstopped
          · exact Or.inr (Or.inl hunresolved)
          · exact Or.inr (Or.inr huncertain)
        rw [if_pos hexcused, hafter]
        exact congrArg Option.toList hnone
    | raised error =>
      rw [hquery] at hunfold
      by_cases hterminal : error.terminal = true
      · have hafter := hunfold.trans (if_pos hterminal)
        rw [script.terminated error hquery hterminal, hafter]
        simp [hnone]
      · exact hlost (hunfold.trans (if_neg hterminal)) hnone
  · exact hlost (hunfold.trans (if_neg hdrain)) hnone

theorem read_balance (script : Script) (pipe : Pipe) :
    pipe.completedRead.toList ++ pipe.arrival script =
      pipe.handing script ++ (pipe.operation false true script).2.completedRead.toList := by
  have hoperation : pipe.operation false true script =
      if script.gate.stopped then (.error .stopped, pipe)
      else if script.gate.late then (.error .deadline, pipe)
      else match pipe.completedRead with
        | some message =>
          if pipe.unresolved || (pipe.uncertain || script.uncertain) then
            (.error .stopped, pipe.see script.uncertain)
          else (.ok message, { pipe.see script.uncertain with completedRead := none })
        | none => ((attempt false pipe.isOpen script).result,
            (pipe.see script.uncertain).finish true script (attempt false pipe.isOpen script)) := by
    rfl
  have hidle : ∀ {category : Category} {after : Pipe}, pipe.submits script = false →
      pipe.operation false true script = (.error category, after) →
      after.completedRead = pipe.completedRead →
      pipe.completedRead.toList ++ pipe.arrival script =
        pipe.handing script ++ (pipe.operation false true script).2.completedRead.toList := by
    intro category after hsubmits hresult hkept
    rw [Pipe.arrival, Pipe.handing, hresult, hsubmits, hkept]
    simp
  by_cases hstopped : script.gate.stopped = true
  · exact hidle (by simp [Pipe.submits, hstopped]) (hoperation.trans (if_pos hstopped)) rfl
  by_cases hlate : script.gate.late = true
  · exact hidle (by simp [Pipe.submits, hlate])
      (hoperation.trans ((if_neg hstopped).trans (if_pos hlate))) rfl
  rw [if_neg hstopped, if_neg hlate] at hoperation
  cases hcompleted : pipe.completedRead with
  | some message =>
    have hsubmits : pipe.submits script = false := by simp [Pipe.submits, hcompleted]
    rw [hcompleted] at hoperation
    by_cases huncertain : (pipe.unresolved || (pipe.uncertain || script.uncertain)) = true
    · rw [← hcompleted]
      exact hidle hsubmits (hoperation.trans (if_pos huncertain)) rfl
    · have hresult := hoperation.trans (if_neg huncertain)
      rw [Pipe.arrival, Pipe.handing, hresult, hsubmits]
      simp
  | none =>
    rw [hcompleted] at hoperation
    have hnone : (pipe.see script.uncertain).completedRead = none := hcompleted
    have hsubmits : pipe.isOpen = true → pipe.submits script = true := fun hopen => by
      simp [Pipe.submits, hstopped, hlate, hcompleted, hopen]
    cases hresult : (attempt false pipe.isOpen script).result with
    | ok message =>
      obtain ⟨hdone, hopen, htaken⟩ := attempt_ok hresult
      have hend : pipe.operation false true script =
          (.ok message, pipe.see script.uncertain) := by
        rw [hoperation, finish_completed true hdone, hresult]
      have hanswers : pipe.submits script = true ∧
          ¬ Excused script (.ok message) (pipe.see script.uncertain) :=
        ⟨hsubmits hopen, fun hexcused => hexcused⟩
      rw [Pipe.arrival, Pipe.handing, hend]
      simp only [if_pos hanswers, htaken, hnone]
      rfl
    | error category =>
      by_cases hdeadline : category = .deadline
      · subst hdeadline
        obtain ⟨hpending, hunfinished, hopen⟩ := attempt_deadline hresult
        have hkept := finish_of_deadline script hnone hresult hpending hunfinished
        rw [Pipe.arrival, Pipe.handing, hoperation, hresult, hkept]
        simp only [hsubmits hopen, true_and, Option.toList_none, List.nil_append, ite_not]
      · have hkept := finish_of_ne script hnone hresult hdeadline
        have hexcused : Excused script (.error category)
            ((pipe.see script.uncertain).finish true script
              (attempt false pipe.isOpen script)) := by
          cases category <;> first | exact trivial | exact absurd rfl hdeadline
        rw [Pipe.arrival, Pipe.handing, hoperation, hresult, hkept]
        simp only [hexcused, not_true_eq_false, and_false, if_false]
        rfl

theorem completedRead_finish_false (tried : Tried) :
    (pipe.finish false script tried).completedRead = pipe.completedRead := by
  unfold Pipe.finish
  simp only [Bool.false_and, Bool.false_eq_true, if_false]
  split
  · split
    · split
      · rfl
      · split <;> rfl
    · rfl
  · rfl

theorem completedRead_operation_false (connectedOk : Bool) (script : Script) (pipe : Pipe) :
    (pipe.operation connectedOk false script).2.completedRead = pipe.completedRead := by
  unfold Pipe.operation
  simp only [Bool.false_eq_true, if_false]
  split
  · rfl
  · split
    · rfl
    · exact completedRead_finish_false _

theorem completedRead_write (length : ℕ) (script : Script) (pipe : Pipe) :
    (pipe.write length script).2.completedRead = pipe.completedRead := by
  have hoperation := completedRead_operation_false false script pipe
  unfold Pipe.write
  split
  · rfl
  · cases hcase : pipe.operation false false script with
    | mk result after =>
      rw [hcase] at hoperation
      cases result <;> exact hoperation

theorem completedRead_accept (script : Script) (pipe : Pipe) :
    (pipe.accept script).2.completedRead = none :=
  completedRead_operation_false true script { pipe with completedRead := none }

/-- The messages that reads have taken are those that were handed out and the one that is
kept. -/
def Balanced (state : Pipe × Log) : Prop :=
  state.2.arrived = state.2.handed ++ state.1.completedRead.toList

theorem Balanced.step {state : Pipe × Log} (hbalanced : Balanced state) (call : Call) :
    Balanced (call.apply state) := by
  cases call with
  | accept script =>
    change ([] : List Message) = [] ++ (state.1.accept script).2.completedRead.toList
    rw [completedRead_accept]
    rfl
  | read script =>
    change state.2.arrived ++ state.1.arrival script =
      state.2.handed ++ state.1.handing script ++
        (state.1.operation false true script).2.completedRead.toList
    calc state.2.arrived ++ state.1.arrival script
        = state.2.handed ++ (state.1.completedRead.toList ++ state.1.arrival script) := by
          rw [hbalanced, List.append_assoc]
      _ = state.2.handed ++ (state.1.handing script ++
            (state.1.operation false true script).2.completedRead.toList) := by
          rw [read_balance]
      _ = state.2.handed ++ state.1.handing script ++
            (state.1.operation false true script).2.completedRead.toList := by
          rw [List.append_assoc]
  | write length script =>
    change state.2.arrived =
      state.2.handed ++ (state.1.write length script).2.completedRead.toList
    rw [completedRead_write]
    exact hbalanced
  | close =>
    rw [Balanced, Call.apply, Call.step, Pipe.close]
    by_cases hunresolved : state.1.unresolved = true
    · simp only [if_pos hunresolved]
      exact hbalanced
    · simp only [if_neg hunresolved]
      rfl
  | uncertain => exact hbalanced

theorem balanced_runCalls (calls : List Call) : Balanced (runCalls calls) := by
  have hrun : ∀ state, Balanced state → Balanced (calls.foldl Call.apply state) := by
    induction calls with
    | nil => exact fun state hstate => hstate
    | cons call rest ih => exact fun state hstate => ih _ (hstate.step call)
  exact hrun _ rfl

theorem given_sublist (calls : List Call) (pipe : Pipe) :
    (pipe.given calls).Sublist (pipe.completedRead.toList ++ pipe.taken calls) := by
  induction calls generalizing pipe with
  | nil => exact List.nil_sublist _
  | cons call rest ih =>
    have hrest := ih (call.step pipe)
    have hkept : (call.step pipe).completedRead.toList.Sublist pipe.completedRead.toList →
        ((call.step pipe).given rest).Sublist
          (pipe.completedRead.toList ++ (call.step pipe).taken rest) :=
      fun hsublist => hrest.trans (hsublist.append (List.Sublist.refl _))
    cases call with
    | accept script =>
      refine hkept ?_
      rw [Call.step, completedRead_accept]
      exact List.nil_sublist _
    | read script =>
      change (pipe.handing script ++ (pipe.operation false true script).2.given rest).Sublist
        (pipe.completedRead.toList ++
          (pipe.arrival script ++ (pipe.operation false true script).2.taken rest))
      rw [← List.append_assoc, read_balance, List.append_assoc]
      exact (List.Sublist.refl _).append hrest
    | write length script =>
      refine hkept ?_
      rw [Call.step, completedRead_write]
    | close =>
      refine hkept ?_
      rw [Call.step, Pipe.close]
      split
      · exact List.Sublist.refl _
      · exact List.nil_sublist _
    | uncertain => exact hkept (List.Sublist.refl _)

/-- A read that is cancelled at its deadline while its message arrives. -/
def cancelledRead : Script where
  gate := ⟨false, false⟩
  uncertain := false
  issue := .code 997
  buffer := [1]
  rounds := [⟨⟨false, false⟩, .timeout⟩]
  endStopped := false
  result := .raised ⟨true, some 996⟩
  drain := ⟨true, .object0, .count 1, false, false⟩
  taken := some ⟨1, [1]⟩
  reported := by
    rintro count (hcount | hcount)
    · exact nomatch hcount
    · exact Query.count.inj hcount ▸ rfl
  terminated := fun _ herror => nomatch herror

/-- A read whose wait fails while its message arrives. -/
def failedWait : Script where
  gate := ⟨false, false⟩
  uncertain := false
  issue := .code 997
  buffer := [1]
  rounds := [⟨⟨false, false⟩, .failed⟩]
  endStopped := false
  result := .raised ⟨true, some 996⟩
  drain := ⟨true, .object0, .count 1, false, false⟩
  taken := some ⟨1, [1]⟩
  reported := by
    rintro count (hcount | hcount)
    · exact nomatch hcount
    · exact Query.count.inj hcount ▸ rfl
  terminated := fun _ herror => nomatch herror

/-- A read that gets its message at once. -/
def promptRead : Script where
  gate := ⟨false, false⟩
  uncertain := false
  issue := .code 0
  buffer := [2]
  rounds := []
  endStopped := false
  result := .count 1
  drain := ⟨true, .object0, .count 1, false, false⟩
  taken := some ⟨1, [2]⟩
  reported := by
    rintro count (hcount | hcount)
    · exact Query.count.inj hcount ▸ rfl
    · exact Query.count.inj hcount ▸ rfl
  terminated := fun _ herror => nomatch herror

end Facts

end Pallium.Bridge
