import EventScript.Proofs.AtRest
import EventScript.Proofs.Sections

/-!
# Where an event goes on after a battle

An event that asked for a battle waits at its command, and goes on by the result and by what it
asked for. Some results have a section of their own in the block of the command; the search for one
does not ask whether there is such a block.

* `BattleRequest.wanted?` is what is searched for.
* `Frame.StaysBy` lists the places that belong to the command: a section of its block, what comes
  right behind it, the end of the list for an escape that ends the event, and the end of the game.
* `Frame.encounter_stays_iff`: the event goes on at one of them exactly if the command has a block,
  or nothing is searched for, or no block of another battle stands behind it in the same section.
  Where the block is there if it is asked for, this can only fail for a battle that was broken off.
-/

namespace EventScript

open Act Blocks

/-! ## What is searched for -/

/-- The operation that begins the section for a result. A battle that was broken off has none. -/
def BattleResult.section? : BattleResult → Option FieldOp
  | .victory => some .victoryHandler
  | .escape => some .escapeHandler
  | .defeat => some .defeatHandler
  | .abort => none

theorem BattleResult.mem_markers_of_section? {r : BattleResult} {op : FieldOp}
    (h : r.section? = some op) : Opcode.field op ∈ BlockKind.markers .battle := by
  cases r <;> cases h <;> decide

/-- What is searched for behind the command when the battle that was asked for has a result. -/
def BattleRequest.wanted? (b : BattleRequest) : BattleResult → Option FieldOp
  | .victory => if b.defeatMode = 0 ∧ b.escapeMode ≠ 2 then none else some .victoryHandler
  | .escape => if b.escapeMode = 2 then some .escapeHandler else none
  | .defeat => if b.defeatMode = 0 then none else some .defeatHandler
  | .abort => some .endBattle

/-- A section is searched for only for its own result. -/
theorem BattleRequest.section?_of_wanted? {b : BattleRequest} {r : BattleResult} {op : FieldOp}
    (h : b.wanted? r = some op) : r.section? = some op ∨ r = .abort ∧ op = .endBattle := by
  cases r with
  | abort =>
    cases h
    exact .inr ⟨rfl, rfl⟩
  | victory | escape | defeat =>
    simp only [wanted?] at h
    split at h
    all_goals cases h
    all_goals exact .inl rfl

theorem BattleRequest.delimits_of_wanted? {b : BattleRequest} {r : BattleResult} {op : FieldOp}
    (h : b.wanted? r = some op) : BlockKind.Delimits .battle (.field op) := by
  rcases section?_of_wanted? h with hsection | ⟨-, rfl⟩
  · exact .inl (BattleResult.mem_markers_of_section? hsection)
  · exact .inr rfl

/-- Where the request asks for no block, only a battle that was broken off makes for a search. -/
theorem BattleRequest.isSome_wanted?_iff {b : BattleRequest} (hescape : b.escapeMode ≠ 2)
    (hdefeat : b.defeatMode = 0) (r : BattleResult) :
    (b.wanted? r).isSome = true ↔ r = .abort := by
  cases r <;> simp [wanted?, hescape, hdefeat]

namespace Commands

variable {f : Frame} {w : World} {op : FieldOp}

/-- What is searched for is gone to, or passed by if it is not found. -/
theorem afterBattle_of_wanted
    (h : w.game.scene.battle.wanted? w.game.scene.battleResult = some op) :
    afterBattle f w = .ok (.next ((findSection f op .endBattle).getD f.pc), w) := by
  rw [afterBattle, getGame_bind]
  cases hresult : w.game.scene.battleResult
  all_goals simp only [hresult, BattleRequest.wanted?] at h ⊢
  case victory =>
    split at h
    · cases h
    · next hblock =>
      cases h
      rw [if_neg (by simpa using hblock)]
      rfl
  case escape =>
    split at h
    · next hmode =>
      cases h
      rw [hmode]
      rfl
    · cases h
  case defeat =>
    split at h
    · cases h
    · next hmode =>
      cases h
      rw [if_neg hmode]
      rfl
  case abort =>
    cases h
    rfl

/-- What an event does after a battle for which nothing is searched. -/
inductive PastBattle (f : Frame) (w : World) : Outcome → World → Prop
  | rests : PastBattle f w (.rest f.pc) w
  | goes : PastBattle f w (.next f.pc) w
  | leaves (hresult : w.game.scene.battleResult = .escape)
      (hmode : w.game.scene.battle.escapeMode = 1) :
      PastBattle f w (.next f.commands.length) w
  | gameOver (hresult : w.game.scene.battleResult = .defeat)
      (hmode : w.game.scene.battle.defeatMode = 0) : PastBattle f w (.await f.pc .scene)
        { w with game := { w.game with scene := { w.game.scene with gameOver := true } } }

theorem afterBattle_of_unwanted
    (h : w.game.scene.battle.wanted? w.game.scene.battleResult = none) :
    ∃ o u, afterBattle f w = .ok (o, u) ∧ PastBattle f w o u := by
  cases hresult : w.game.scene.battleResult
  all_goals simp only [hresult, BattleRequest.wanted?] at h
  case victory =>
    split at h
    · next hplain =>
      refine ⟨_, w, ?_, .rests⟩
      rw [afterBattle, getGame_bind]
      simp only [hresult]
      rw [if_pos (by simpa using hplain)]
      rfl
    · cases h
  case escape =>
    split at h
    · cases h
    · next hmode =>
      have hne : w.game.scene.battle.escapeMode.toInt ≠ 2 := fun htwo =>
        hmode (Int32.toInt_inj.1 htwo)
      by_cases hone : w.game.scene.battle.escapeMode = 1
      · refine ⟨_, w, ?_, .leaves hresult hone⟩
        rw [afterBattle, getGame_bind]
        simp only [hresult, hone]
        rfl
      · refine ⟨_, w, ?_, .goes⟩
        rw [afterBattle, getGame_bind]
        simp only [hresult]
        refine congrFun (g := (pure (.next f.pc) : Act Outcome)) ?_ w
        split
        · next hmode' => exact absurd (Int32.toInt_inj.1 hmode') hone
        · next hmode' => exact absurd hmode' hne
        · rfl
  case defeat =>
    split at h
    · next hmode =>
      have hover : afterBattle f w = request f (fun s => { s with gameOver := true }) w := by
        rw [afterBattle, getGame_bind]
        simp only [hresult]
        rw [if_pos hmode]
      exact ⟨_, _, hover.trans rfl, .gameOver hresult hmode⟩
    · cases h
  case abort => cases h

end Commands

/-! ## Searches that leave the command -/

namespace Blocks

variable {cs : List Command} {n a b i p : Nat} {c : Command} {indent : Number} {op : FieldOp}

/-- The block of another battle stands behind a place at its depth, in the same section. -/
def BattleBehind (cs : List Command) (p n : Nat) : Prop :=
  ∃ a b, p < a ∧ HasBlock cs .battle n a b ∧
    ∀ i x, p < i → i < a → cs[i]? = some x → (n : Int) ≤ x.indent.toInt

section

variable (hn : c.indent.toInt = n)

include hn

/-- A search from a command without a block finds something only in the block of another battle
behind it. -/
theorem exists_block_of_seek (hnest : WellNested cs) (hc : cs[p]? = some c)
    (hop : c.opcode = .field .enemyEncounter) (halone : ∀ b, ¬ HasBlock cs .battle n p b)
    (hwanted : BlockKind.Delimits .battle (.field op))
    (hseek : seek cs (p + 1) op.code FieldOp.endBattle.code c.indent c.indent = some i) :
    ∃ a b, p < a ∧ HasBlock cs .battle n a b ∧ a < i ∧ i ≤ b := by
  have hfirst := seek_eq_some_iff.1 hseek
  obtain ⟨x, hx, hhit⟩ := hfirst.hit
  have hxn := indent_of_hits hhit hn
  have hdelimits : BlockKind.Delimits .battle x.opcode := by
    rcases hhit.2 with hcode | hcode
    · have hofcode : Opcode.ofCode op.code = .field op := hwanted.ofCode_code
      have hxop : x.opcode = .field op := Command.opcode_eq_of_code hofcode hcode
      rwa [hxop]
    · have hxop : x.opcode = BlockKind.closer .battle := Command.opcode_eq_of_code rfl hcode
      exact .inr hxop
  obtain ⟨m, a, b, hm, hblock, ha, hi⟩ := hnest.enclosed hx hdelimits
  obtain rfl : m = n := by omega
  refine ⟨a, b, ?_, hblock, ha, hi⟩
  have hle := hfirst.le
  rcases Nat.lt_trichotomy a p with hlt | rfl | hgt
  · -- the command cannot stand in the block of another battle at its own depth
    have hmark : c.opcode ∉ BlockKind.markers .battle :=
      hop ▸ BlockKind.opener_not_mem_markers .battle .battle
    have hdeep := hblock.lt_indent hlt (by omega) hc hmark
    omega
  · exact absurd hblock (halone b)
  · exact hgt

/-- If it finds something, the list between does not leave the section of the command. -/
theorem BattleBehind.of_seek (hseek : seek cs (p + 1) op.code FieldOp.endBattle.code c.indent
      c.indent = some i) {a b : Nat} (ha : p < a) (hblock : HasBlock cs .battle n a b)
    (hi : a < i) : BattleBehind cs p n := by
  refine ⟨a, b, ha, hblock, fun j x hj hlt hx => ?_⟩
  have hlow := ((seek_eq_some_iff.1 hseek).passed j x hj (by omega) hx).1
  have hle := Int32.le_iff_toInt_le.1 hlow
  omega

/-- The block of another battle behind a command ends every search from it. -/
theorem BattleBehind.exists_seek (h : BattleBehind cs p n) (op : FieldOp) :
    ∃ i, seek cs (p + 1) op.code FieldOp.endBattle.code c.indent c.indent = some i := by
  obtain ⟨a, b, ha, hblock, hbetween⟩ := h
  obtain ⟨e, he, hen, hcloses⟩ := hblock.closes
  have hhit : Hits op.code FieldOp.endBattle.code c.indent c.indent e :=
    hits_of_indent hen hn (.inr (Command.code_eq_of_opcode hcloses))
  have hlow (j : Nat) (x : Command) (hj : p + 1 ≤ j) (hlt : j < b) (hx : cs[j]? = some x) :
      c.indent ≤ x.indent := by
    rcases Nat.lt_trichotomy j a with hja | rfl | hja
    · have hle := hbetween j x hj hja hx
      exact Int32.le_iff_toInt_le.2 (by omega)
    · obtain ⟨d, hd, hdn, -⟩ := hblock.opens
      cases hx.symm.trans hd
      exact Int32.le_iff_toInt_le.2 (by omega)
    · exact (hblock.inside j x hja hlt hx).le_indent hn
  have hle : p + 1 ≤ b := Nat.succ_le_of_lt (ha.trans hblock.lt)
  obtain ⟨i, -, hfirst⟩ := exists_firstHit hle he hhit hlow
  exact ⟨i, seek_eq_some_iff.2 hfirst⟩

end

end Blocks

/-! ## Frames that waited for a battle -/

namespace Frame

variable {env : Env} {f : Frame} {w : World} {c : Command} {n : Nat}

/-- Where a frame that waited for a battle goes on, if it stays by its command. -/
inductive StaysBy (env : Env) (f : Frame) (n : Nat) (w : World) : Frame → World → Prop
  /-- The first section for the result. -/
  | inSection {b i : Nat} {op : FieldOp} (hblock : HasBlock f.commands .battle n f.pc b)
      (hop : w.game.scene.battleResult.section? = some op)
      (hi : IsSection f.commands n f.pc b (.field op) i) : StaysBy env f n w (f.goto i) w
  /-- Behind the block, which has no section for the result. -/
  | behindBlock {b : Nat} (hblock : HasBlock f.commands .battle n f.pc b)
      (hmissing : ∀ op, w.game.scene.battleResult.section? = some op →
        ∀ i, ¬ IsSection f.commands n f.pc b (.field op) i) : StaysBy env f n w (f.goto b) w
  /-- The next command ends a section of the block, or the block, and is stepped over. -/
  | overMarker {b : Nat} (hblock : HasBlock f.commands .battle n f.pc b)
      (hover : ∀ v, (f.goto f.pc).isFree v.game = true → (f.goto f.pc).turn env v =
        .ok ({ frame := f.goto b, signal := .again }, v)) : StaysBy env f n w (f.goto f.pc) w
  /-- Behind a command without a block. -/
  | behindCommand (halone : ∀ b, ¬ HasBlock f.commands .battle n f.pc b) :
      StaysBy env f n w (f.goto f.pc) w
  /-- The end of the list, for an escape that ends the event. -/
  | atEnd (hresult : w.game.scene.battleResult = .escape)
      (hmode : w.game.scene.battle.escapeMode = 1) :
      StaysBy env f n w (f.goto f.commands.length) w
  /-- At the command, for a defeat that ends the game. -/
  | gameOver (hresult : w.game.scene.battleResult = .defeat)
      (hmode : w.game.scene.battle.defeatMode = 0) :
      StaysBy env f n w { f with pause := .goOn .scene }
        { w with game := { w.game with scene := { w.game.scene with gameOver := true } } }

/-- The frame waits at a command that asked for a battle, and is held up no longer. -/
structure ResumesBattle (f : Frame) (w : World) (c : Command) (n : Nat) : Prop where
  context : f.context = .field
  pause : f.pause = .goOn .battle
  free : f.isFree w.game = true
  command : f.commands[f.pc]? = some c
  opcode : c.opcode = .field .enemyEncounter
  depth : c.indent.toInt = n
  nested : WellNested f.commands
  inStep : f.InStep

theorem ResumesBattle.turn (h : f.ResumesBattle w c n) {o : Outcome} {u : World}
    (ho : Commands.afterBattle f.ready w = .ok (o, u)) : f.turn env w = f.ready.settle env o u := by
  rw [turn_of_free h.pause h.free]
  exact bind_of_ok ho

/-- Going on behind the command is staying by it: a marker that follows is stepped over. -/
theorem ResumesBattle.staysBy_goto (h : f.ResumesBattle w c n) :
    StaysBy env f n w (f.goto f.pc) w := by
  by_cases halone : ∀ b, ¬ HasBlock f.commands .battle n f.pc b
  · exact .behindCommand halone
  · push Not at halone
    obtain ⟨b, hblock⟩ := halone
    have hb := hblock.lt_length
    have hpc : (f.goto f.pc).pc = f.pc + 1 :=
      Nat.min_eq_left ((Nat.succ_le_of_lt hblock.lt).trans hb.le)
    obtain ⟨x, hx, hn, hdelimits⟩ := h.nested.delimits_behind hblock rfl
    refine .overMarker hblock fun v hfree => ?_
    obtain ⟨hread, hheld⟩ := isFree_iff.1 hfree
    have hcome : (f.goto f.pc).ComesTo env v (f.goto f.pc) v := .goes hread (.inl rfl) hheld
    have hruns : BlockKind.runsIn .battle (f.goto f.pc).context = true :=
      decide_eq_true h.context
    refine turn_of_delimiter (g := f.goto f.pc) hcome (h.inStep.goto f.pc) hblock hruns nofun
      ?_ ?_ ?_ hn hdelimits
    · omega
    · have hlt := hblock.lt
      omega
    · rw [hpc]
      exact hx

/-- Where nothing is searched for, the frame stays by its command. -/
theorem ResumesBattle.stays_of_unwanted (h : f.ResumesBattle w c n)
    (hnone : w.game.scene.battle.wanted? w.game.scene.battleResult = none) :
    ∃ t u, f.turn env w = .ok (t, u) ∧ StaysBy env f n w t.frame u := by
  obtain ⟨o, u, ho, hpast⟩ := Commands.afterBattle_of_unwanted (f := f.ready) hnone
  have hturn : f.turn env w = f.ready.settle env o u := h.turn ho
  cases hpast with
  | rests | goes => exact ⟨_, _, hturn, h.staysBy_goto⟩
  | leaves hresult hmode => exact ⟨_, _, hturn, .atEnd hresult hmode⟩
  | gameOver hresult hmode => exact ⟨_, _, hturn, .gameOver hresult hmode⟩

/-- Where something is searched for, the frame goes to what is found, or else behind the command. -/
theorem ResumesBattle.turn_of_wanted (h : f.ResumesBattle w c n) {op : FieldOp}
    (hop : w.game.scene.battle.wanted? w.game.scene.battleResult = some op) :
    f.turn env w = .ok ({ frame := f.goto ((seek f.commands (f.pc + 1) op.code
      FieldOp.endBattle.code c.indent c.indent).getD f.pc), signal := .again }, w) := by
  have hturn : f.turn env w = _ := h.turn (Commands.afterBattle_of_wanted hop)
  have hsection : Commands.findSection f.ready op .endBattle =
      seek f.commands (f.pc + 1) op.code FieldOp.endBattle.code c.indent c.indent := by
    have hcommand : f.ready.commands[f.ready.pc]? = some c := h.command
    simp only [Commands.findSection, hcommand]
    rfl
  rw [hsection] at hturn
  exact hturn

/-- A command with a block is stayed by. -/
theorem ResumesBattle.stays_of_block (h : f.ResumesBattle w c n) {b : Nat}
    (hblock : HasBlock f.commands .battle n f.pc b) :
    ∃ t u, f.turn env w = .ok (t, u) ∧ StaysBy env f n w t.frame u := by
  cases hwanted : w.game.scene.battle.wanted? w.game.scene.battleResult with
  | none => exact h.stays_of_unwanted hwanted
  | some op =>
    refine ⟨_, _, h.turn_of_wanted hwanted, ?_⟩
    rcases BattleRequest.section?_of_wanted? hwanted with hsection | ⟨habort, rfl⟩
    · have hmark := BattleResult.mem_markers_of_section? hsection
      obtain ⟨i, hfinds, hseek⟩ := hblock.findsSection hmark h.depth
      have hplace : (seek f.commands (f.pc + 1) op.code FieldOp.endBattle.code c.indent
          c.indent).getD f.pc = i := congrArg (·.getD f.pc) hseek
      rw [hplace]
      cases hfinds with
      | found hi => exact .inSection hblock hsection hi
      | missing hmissing =>
        refine .behindBlock hblock fun op' hop' => ?_
        cases hsection.symm.trans hop'
        exact hmissing
    · have hseek := hblock.seek_closer h.depth (Nat.lt_succ_self f.pc) hblock.lt
      have hplace : (seek f.commands (f.pc + 1) FieldOp.endBattle.code FieldOp.endBattle.code
          c.indent c.indent).getD f.pc = b := congrArg (·.getD f.pc) hseek
      rw [hplace]
      refine .behindBlock hblock fun op hop => ?_
      rw [habort] at hop
      cases hop

/-- What leads a frame away from its command: there is no block to search, but a search, and the
block of another battle behind. -/
structure Strays (f : Frame) (w : World) (n : Nat) : Prop where
  alone : ∀ b, ¬ HasBlock f.commands .battle n f.pc b
  wanted : (w.game.scene.battle.wanted? w.game.scene.battleResult).isSome = true
  behind : BattleBehind f.commands f.pc n

/-- A frame that is led away goes on in the block of another battle, or behind it. -/
theorem ResumesBattle.turn_of_strays (env : Env) (h : f.ResumesBattle w c n)
    (hstrays : f.Strays w n) :
    ∃ a b i, f.pc < a ∧ HasBlock f.commands .battle n a b ∧ a < i ∧ i ≤ b ∧
      f.turn env w = .ok ({ frame := f.goto i, signal := .again }, w) := by
  obtain ⟨op, hop⟩ := Option.isSome_iff_exists.1 hstrays.wanted
  have hdelimits := BattleRequest.delimits_of_wanted? hop
  obtain ⟨i, hseek⟩ := hstrays.behind.exists_seek h.depth op
  obtain ⟨a, b, ha, hblock, hi, hle⟩ :=
    exists_block_of_seek h.depth h.nested h.command h.opcode hstrays.alone hdelimits hseek
  refine ⟨a, b, i, ha, hblock, hi, hle, ?_⟩
  rw [h.turn_of_wanted hop, hseek]
  rfl

/-- A command without a block is stayed by, unless the frame is led away. -/
theorem ResumesBattle.stays_of_alone (h : f.ResumesBattle w c n)
    (halone : ∀ b, ¬ HasBlock f.commands .battle n f.pc b) (hstays : ¬ f.Strays w n) :
    ∃ t u, f.turn env w = .ok (t, u) ∧ StaysBy env f n w t.frame u := by
  cases hwanted : w.game.scene.battle.wanted? w.game.scene.battleResult with
  | none => exact h.stays_of_unwanted hwanted
  | some op =>
    refine ⟨_, _, h.turn_of_wanted hwanted, ?_⟩
    have hdelimits := BattleRequest.delimits_of_wanted? hwanted
    have hnone : seek f.commands (f.pc + 1) op.code FieldOp.endBattle.code c.indent c.indent =
        none := by
      by_contra hsome
      obtain ⟨i, hseek⟩ := Option.ne_none_iff_exists'.1 hsome
      obtain ⟨a, b, ha, hblock, hi, -⟩ :=
        exists_block_of_seek h.depth h.nested h.command h.opcode halone hdelimits hseek
      exact hstays ⟨halone, by rw [hwanted]; rfl, .of_seek h.depth hseek ha hblock hi⟩
    rw [hnone]
    exact .behindCommand halone

/-- A frame that is led away does not stay by its command. -/
theorem Strays.not_staysBy (hstrays : f.Strays w n) {i : Nat} (hi : f.pc < i)
    (hlt : i < f.commands.length) {g : Frame} {u : World} (hg : g = f.goto i) :
    ¬ StaysBy env f n w g u := by
  intro hstays
  have hpc : g.pc = i + 1 := by
    rw [hg]
    exact Nat.min_eq_left hlt
  cases hstays with
  | inSection hblock | behindBlock hblock | overMarker hblock =>
    exact hstrays.alone _ hblock
  | behindCommand =>
    have hpc' : (f.goto f.pc).pc = f.pc + 1 := Nat.min_eq_left (by omega)
    omega
  | atEnd hresult hmode =>
    have hwanted := hstrays.wanted
    rw [hresult, BattleRequest.wanted?, hmode] at hwanted
    cases hwanted
  | gameOver hresult hmode =>
    have hwanted := hstrays.wanted
    rw [hresult, BattleRequest.wanted?, if_pos hmode] at hwanted
    cases hwanted

/-- Where the command has its block exactly if it asks for one, and the battle was asked for with
its modes, only a battle that was broken off leads away. -/
theorem strays_iff_of_modes (hescape : w.game.scene.battle.escapeMode = c.param 3)
    (hdefeat : w.game.scene.battle.defeatMode = c.param 4)
    (hblock : (∃ b, HasBlock f.commands .battle n f.pc b) ↔ c.param 3 = 2 ∨ c.param 4 ≠ 0) :
    f.Strays w n ↔ w.game.scene.battleResult = .abort ∧
      (∀ b, ¬ HasBlock f.commands .battle n f.pc b) ∧ BattleBehind f.commands f.pc n := by
  have hmodes (halone : ∀ b, ¬ HasBlock f.commands .battle n f.pc b) :
      w.game.scene.battle.escapeMode ≠ 2 ∧ w.game.scene.battle.defeatMode = 0 := by
    have hplain := mt hblock.2 (not_exists.2 halone)
    rw [hescape, hdefeat]
    exact ⟨fun htwo => hplain (.inl htwo), not_not.1 fun hne => hplain (.inr hne)⟩
  constructor
  · rintro ⟨halone, hwanted, hbehind⟩
    obtain ⟨hno, hzero⟩ := hmodes halone
    exact ⟨(BattleRequest.isSome_wanted?_iff hno hzero _).1 hwanted, halone, hbehind⟩
  · rintro ⟨habort, halone, hbehind⟩
    obtain ⟨hno, hzero⟩ := hmodes halone
    exact ⟨halone, (BattleRequest.isSome_wanted?_iff hno hzero _).2 habort, hbehind⟩

/-- An event that waited for a battle in a well-nested list. It stays by the command that asked for
the battle, or the search for a section leads it to the block of another battle behind, which
happens exactly if the command has no block of its own and something is searched for. Where the
battle was asked for with the modes of the command, and the command has its block exactly if they
ask for it, this is so only for a battle that was broken off. -/
theorem encounter_stays_iff (h : f.ResumesBattle w c n) : ∃ t u, f.turn env w = .ok (t, u) ∧
    (StaysBy env f n w t.frame u ↔ ¬ f.Strays w n) ∧
    (f.Strays w n → u = w ∧ ∃ a b i, f.pc < a ∧ HasBlock f.commands .battle n a b ∧ a < i ∧ i ≤ b ∧
      t.frame = f.goto i) ∧
    (w.game.scene.battle.escapeMode = c.param 3 → w.game.scene.battle.defeatMode = c.param 4 →
      ((∃ b, HasBlock f.commands .battle n f.pc b) ↔ c.param 3 = 2 ∨ c.param 4 ≠ 0) →
      (StaysBy env f n w t.frame u ↔ ¬ (w.game.scene.battleResult = .abort ∧
        (∀ b, ¬ HasBlock f.commands .battle n f.pc b) ∧ BattleBehind f.commands f.pc n))) := by
  by_cases hstrays : f.Strays w n
  · obtain ⟨a, b, i, ha, hblock, hi, hle, hturn⟩ := h.turn_of_strays env hstrays
    have hb := hblock.lt_length
    have hnot : ¬ StaysBy env f n w (f.goto i) w := hstrays.not_staysBy (by omega) (by omega) rfl
    refine ⟨_, _, hturn, iff_of_false hnot (not_not.2 hstrays),
      fun _ => ⟨rfl, a, b, i, ha, hblock, hi, hle, rfl⟩, fun hescape hdefeat hblock' => ?_⟩
    exact iff_of_false hnot (not_not.2 ((strays_iff_of_modes hescape hdefeat hblock').1 hstrays))
  · have hstays : ∃ t u, f.turn env w = .ok (t, u) ∧ StaysBy env f n w t.frame u := by
      by_cases halone : ∀ b, ¬ HasBlock f.commands .battle n f.pc b
      · exact h.stays_of_alone halone hstrays
      · push Not at halone
        obtain ⟨b, hblock⟩ := halone
        exact h.stays_of_block hblock
    obtain ⟨t, u, hturn, hby⟩ := hstays
    refine ⟨t, u, hturn, iff_of_true hby hstrays, fun hs => absurd hs hstrays,
      fun hescape hdefeat hblock' => ?_⟩
    exact iff_of_true hby (mt (strays_iff_of_modes hescape hdefeat hblock').2 hstrays)

/-- Two battles; only the second one has a block. -/
def twoBattles : List Command := [
  { code := FieldOp.enemyEncounter.code, params := [0, 1] },
  { code := SharedOp.controlVariables.code, params := [0, 1, 1, 0, 0, 5] },
  { code := SharedOp.endEvent.code },
  { code := FieldOp.enemyEncounter.code, params := [0, 1, 0, 2] },
  { code := FieldOp.escapeHandler.code },
  { code := FieldOp.endBattle.code },
  { code := SharedOp.controlVariables.code, params := [0, 2, 2, 0, 0, 7] }]

theorem wellNested_twoBattles : WellNested twoBattles := by
  have hlast : Nested 0 none (twoBattles.drop 6) := .plain (by decide) rfl .nil
  have hblock : Nested 0 none (twoBattles.drop 3) :=
    @Nested.opens 0 .battle _ [] _ rfl rfl .nil (fun _ => rfl)
      (@Nested.marks 0 .battle _ [] _ (by decide) rfl .nil (.closes rfl rfl hlast))
  exact .plain (by decide) rfl (.plain (by decide) rfl (.plain (by decide) rfl hblock))

/-- When the first battle is broken off, the event goes on behind the block of the second one. -/
theorem twoBattles_skips : WellNested twoBattles ∧ ∃ (f : Frame) (w : World) (c : Command),
    f.ResumesBattle w c 0 ∧ f.commands = twoBattles ∧ f.pc = 0 ∧
      w.game.scene.battleResult = .abort ∧ w.game.scene.battle.escapeMode = c.param 3 ∧
      w.game.scene.battle.defeatMode = c.param 4 ∧
      ((∃ b, HasBlock twoBattles .battle 0 0 b) ↔ c.param 3 = 2 ∨ c.param 4 ≠ 0) ∧
      f.turn { data := {}, host := {} } w = .ok ({ frame := f.goto 5, signal := .again }, w) ∧
      ¬ StaysBy { data := {}, host := {} } f 0 w (f.goto 5) w := by
  obtain ⟨jumps, hjumps⟩ : ∃ jumps, Landings.ofCommands twoBattles = .ok jumps := ⟨_, rfl⟩
  let f : Frame :=
    { context := .field, depth := 0, isRoot := false, commands := twoBattles, jumps := jumps,
      pause := .goOn .battle }
  let g : Game := Game.begin {} default
  let w : World := { game := { g with scene := { g.scene with battleResult := .abort } } }
  have hstep : f.InStep := ⟨Nat.zero_le _, Landings.landing_eq_of_ofCommands hjumps,
    Landings.label?_eq_of_ofCommands hjumps⟩
  have hresumes : f.ResumesBattle w { code := FieldOp.enemyEncounter.code, params := [0, 1] } 0 :=
    ⟨rfl, rfl, rfl, rfl, rfl, rfl, wellNested_twoBattles, hstep⟩
  have halone (b : Nat) : ¬ HasBlock twoBattles .battle 0 0 b := by
    intro hblock
    rcases Nat.lt_or_eq_of_le (Nat.succ_le_of_lt hblock.lt) with hlt | rfl
    · exact absurd (hblock.inside 1 _ (Nat.lt_succ_self 0) hlt rfl) (by decide)
    · obtain ⟨e, he, -, hcloses⟩ := hblock.closes
      cases he
      cases hcloses
  have hbehind : BattleBehind twoBattles 0 0 := by
    refine ⟨3, 5, by decide, by decide, fun i x hi hlt hx => ?_⟩
    obtain rfl | rfl : i = 1 ∨ i = 2 := by omega
    · cases hx
      decide
    · cases hx
      decide
  have hblocks : (∃ b, HasBlock twoBattles .battle 0 0 b) ↔ (0 : Number) = 2 ∨ (0 : Number) ≠ 0 :=
    iff_of_false (not_exists.2 halone) (by decide)
  have hrun : f.turn { data := {}, host := {} } w =
      .ok ({ frame := f.goto 5, signal := .again }, w) := rfl
  obtain ⟨t, u, hturn, -, -, hown⟩ :=
    @encounter_stays_iff { data := {}, host := {} } f w _ 0 hresumes
  cases hrun.symm.trans hturn
  refine ⟨wellNested_twoBattles, f, w, _, hresumes, rfl, rfl, rfl, rfl, rfl, hblocks, hrun, ?_⟩
  exact fun hstays => (hown rfl rfl hblocks).1 hstays ⟨rfl, halone, hbehind⟩

end Frame

end EventScript
