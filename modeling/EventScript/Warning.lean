import EventScript.Opcode

/-!
# Warnings

What is odd about an event and does not stop it.
-/

namespace EventScript

/-- Something odd that an event did. -/
inductive Warning
  | invalidSwitch
  | invalidVariable
  | invalidItem
  | unknownMap
  | badActor
  | unknownActorAttribute
  | badCharacter
  | unknownCharacterAttribute
  | unknownCounter
  | unknownActorSelection
  | actorNotFound
  | invalidActor
  | unsupportedTarget
  | unsupportedOperation
  | unsupportedOperand
  | unknownTimer
  | unknownParameter
  | notEquippable
  | unknownTransitionSlot
  | unknownVehicle
  | pictureNotShown
  | characterNotFound
  | unsupportedBranch
  | unsupportedBattleBranch
  | branchOnUnknownActor
  | branchOnUnknownEnemy
  | unknownInn
  | unknownBackground
  | unknownPanDirection
  | unknownPanMode
  | commonEventNotFound
  | queuedEventNotFound
  | pageNotFound
  | unknownCallMode
  | callTooDeep
  | outsideContext (op : Opcode)
  | outsideBattle (op : BattleOp)
  | invalidEnemy
  | unknownFleeMode
  | pageNamesInvalidEnemy
  | pageNamesInvalidActor
  | interrupted
  | shopItemNotFound
  | nameOfUnknownActor
  | troopNotFound
  deriving DecidableEq

def Warning.message : Warning → String
  | invalidSwitch => "invalid switch id"
  | invalidVariable => "invalid variable id"
  | invalidItem => "invalid item id"
  | unknownMap => "map not in database"
  | badActor => "bad actor id"
  | unknownActorAttribute => "unknown actor attribute"
  | badCharacter => "bad character id"
  | unknownCharacterAttribute => "unknown character attribute"
  | unknownCounter => "unknown counter"
  | unknownActorSelection => "unknown actor selection"
  | actorNotFound => "actor not found"
  | invalidActor => "invalid actor id"
  | unsupportedTarget => "unsupported target mode"
  | unsupportedOperation => "unsupported variable operation"
  | unsupportedOperand => "unsupported variable operand"
  | unknownTimer => "unknown timer"
  | unknownParameter => "unknown parameter"
  | notEquippable => "item cannot be equipped"
  | unknownTransitionSlot => "unknown transition slot"
  | unknownVehicle => "unknown vehicle"
  | pictureNotShown => "move of a picture that is not shown"
  | characterNotFound => "character not on this map"
  | unsupportedBranch => "unsupported branch condition"
  | unsupportedBattleBranch => "unsupported battle branch condition"
  | branchOnUnknownActor => "branch on unknown actor"
  | branchOnUnknownEnemy => "branch on unknown enemy"
  | unknownInn => "unknown inn type"
  | unknownBackground => "unknown battle background mode"
  | unknownPanDirection => "unknown pan direction"
  | unknownPanMode => "unknown pan mode"
  | commonEventNotFound => "common event not found"
  | queuedEventNotFound => "queued common event not found"
  | pageNotFound => "event page not found"
  | unknownCallMode => "unknown call mode"
  | callTooDeep => "event call depth exceeds ceiling"
  | outsideContext op => op.name ++ " skipped outside its context"
  | outsideBattle op => op.name ++ " outside of a battle"
  | invalidEnemy => "invalid enemy index"
  | unknownFleeMode => "unknown flee mode"
  | pageNamesInvalidEnemy => "troop page names an invalid enemy"
  | pageNamesInvalidActor => "troop page names an invalid actor"
  | interrupted => "event interrupted"
  | shopItemNotFound => "shop item not found"
  | nameOfUnknownActor => "name entry for unknown actor"
  | troopNotFound => "troop not found"

end EventScript
