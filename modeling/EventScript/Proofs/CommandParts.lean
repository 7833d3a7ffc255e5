import EventScript.Commands.Dispatch
import EventScript.Proofs.WorldActs

/-!
# What commands are made of

The conditions that commands test and the operands they read stay within every relation that allows
reports. What commands share in changing the world stays within those that allow it.

* `Commands.within_conditionHolds` and `Commands.within_variableOperand` are about what is read.
* `Commands.within_equipSlots`, `Commands.within_varied` and `Commands.within_pollKeys` are about
  what is done.
-/

namespace EventScript.Commands

open Act World

variable {R : World → World → Prop}

section Lenient

variable [Lenient R]

@[simp] theorem within_writtenIds (c : Command) : (writtenIds c).Within R := by
  unfold writtenIds
  split
  · exact within_pure
  · exact within_pure
  · exact .bind within_read fun _ => within_pure
  · exact within_warned (by simp) _

@[simp] theorem within_variableOperand (env : Env) (f : Frame) (type a b : Number) :
    (variableOperand env f type a b).Within R := by
  refine .bind within_read fun g => ?_
  split
  case h_5 => exact .map (within_readActor a b)
  case h_6 => exact .map (within_readCharacter a f.owner b)
  case h_7 => exact .map (within_counter env.data.config.fps a)
  case h_9 => exact within_warned (by simp) _
  all_goals exact within_pure

@[simp] theorem within_variableHolds (c : Command) : (variableHolds c).Within R :=
  .bind within_read fun _ => .bind (within_operand _ _) fun _ => within_pure

@[simp] theorem within_conditionHolds (env : Env) (f : Frame) (c : Command) :
    (conditionHolds env f c).Within R := by
  refine .bind within_read fun g => ?_
  split
  case h_2 => exact within_variableHolds c
  case h_3 | h_5 | h_11 => exact within_check
  case h_6 =>
    split
    · exact within_pure
    · exact within_warned (by simp) _
  case h_7 => split <;> exact within_pure
  case h_12 => exact within_warned (by simp) _
  all_goals exact within_pure

@[simp] theorem within_battleConditionHolds (c : Command) :
    (battleConditionHolds c).Within R := by
  refine .bind within_read fun g => ?_
  split
  case h_2 => exact within_variableHolds c
  case h_3 | h_4 =>
    split
    · exact within_pure
    · exact within_warned (by simp) _
  case h_7 => exact within_warned (by simp) _
  all_goals exact within_pure

@[simp] theorem within_changeEnemy (t : Troop) (index : Number)
    (change : Enemy → Except Overflow Enemy) : (changeEnemy t index change).Within R := by
  unfold changeEnemy
  split
  · exact .bind within_check fun _ => within_pure
  · exact within_warned (by simp) _

theorem within_forceFlee (c : Command) (t : Troop) : (forceFlee c t).Within R := by
  unfold forceFlee
  split
  · exact within_pure
  · exact within_pure
  · exact within_changeEnemy _ _ _
  · exact within_warned (by simp) _

theorem within_changeEnemySp (g : Game) (c : Command) (t : Troop) :
    (changeEnemySp g c t).Within R := by
  unfold changeEnemySp
  dsimp only
  split
  · exact .bind within_check fun _ => within_changeEnemy _ _ _
  · exact .bind within_pure fun _ => within_changeEnemy _ _ _

end Lenient

section Deeds

variable [AllowsDeeds R]

@[simp] theorem within_equipSlots (item id : Number) (slots : List Nat) :
    (equipSlots item id slots).Within R := by
  induction slots with
  | nil => exact within_pure
  | cons slot slots ih =>
    have hgive (n amount : Number) {a : Act Unit} (h : a.Within R) :
        (if 0 < n then giveItem n amount >>= fun _ => a else a).Within R :=
      .guarded (f := fun _ => a) (within_giveItem n amount) h
    refine within_getGame fun w => ?_
    simp only [ensures_ite, ensures_pure]
    refine ⟨fun _ => Lenient.refl w, fun _ => ?_⟩
    split
    · exact within_pure w
    · next a ha =>
      refine ensures_bind.2 (ensures_setGame.2 ?_)
      exact (hgive item (-1) (hgive _ 1 ih) _).imp fun _ _ hw =>
        Lenient.trans (AllowsDeeds.equips ha) hw

@[simp] theorem within_varied (variance damage : Number) : (varied variance damage).Within R := by
  refine .ite within_pure ?_
  refine .bind within_check fun _ => .bind within_check fun _ => ?_
  refine .bind within_check fun _ => .bind (within_draw _ _) fun _ => ?_
  exact .bind within_check fun _ => within_check

end Deeds

theorem within_pollKeys [AllowsWrites R] (env : Env) (k : KeyCapture) :
    (pollKeys env k).Within R := by
  refine .bind within_check fun polls => .ite within_pure ?_
  split
  · exact within_pure
  · refine .bind (within_setVariable _ _) fun _ => ?_
    have hlast : (do needRefresh; return none : Act (Option KeyCapture)).Within R :=
      .bind within_needRefresh fun _ => within_pure
    split
    · exact hlast
    · exact .bind within_check fun _ => .bind (within_setVariable _ _) fun _ => hlast

end EventScript.Commands
