import Mathlib

/-!
# Visibility

Who may see a row: everyone, everyone who asks from its container, its container's
private queries only, or its actor in any container.
-/

namespace Pallium.Access

inductive Visibility
  | pub
  | container
  | priv
  | global
  deriving DecidableEq, Repr

def isVisible (candidateVisibility : Option Visibility) (candidateContainerRef : Option String)
    (queryContainerRef : Option String) (candidateActorRef : Option String)
    (queryVisibility : Option Visibility) (queryActorRef : Option String) : Bool :=
  if candidateVisibility = some .global then
    candidateActorRef.isSome && queryActorRef.isSome && candidateActorRef == queryActorRef
  else if queryContainerRef = none then true
  else
    -- A shared public row is visible from everywhere.
    let shared := candidateVisibility == some .pub && candidateActorRef.isNone
    match queryVisibility with
    | some .pub => shared
    | some .container =>
      shared ||
        candidateContainerRef == queryContainerRef && candidateVisibility != some .priv
    | _ => candidateContainerRef.isSome && candidateContainerRef == queryContainerRef || shared

end Pallium.Access
