import TabOS.Library.Run
import Mathlib.Data.Fin.Basic
import Mathlib.Data.List.Range
import Mathlib.Logic.Function.Basic

/-!
# The rules of pool

`apps/pool/src/rules.c`, and how `apps/pool/src/game.c` keeps the mask of the potted balls between two shots: a new rack pots none, a foul
takes the cue ball off the table, and it is returned later.
-/

namespace TabOS
namespace Pool

open Library

/-- `POOL_BALL_COUNT`. -/
def poolBallCount : Nat := 16

/-- A bit for each ball. -/
abbrev Mask := BitVec 16

/-- `pool_group_t`. -/
inductive Group where
  | open | solids | stripes
  deriving DecidableEq, Repr

/-- `pool_foul_t`. -/
inductive Foul where
  | fair | scratch | noContact | wrongFirst | noRail
  deriving DecidableEq, Repr

/-- `pool_rule_result_t`. -/
inductive RuleResult where
  | idle | keepTurn | changeTurn | ballInHand | rerack | result
  deriving DecidableEq, Repr

/-- `pool_rules_t`; there are two players. -/
structure Rules where
  player : Fin 2
  groups : Fin 2 → Group
  breakShot : Bool
  pending : Bool
  complete : Bool
  winner : Fin 2
  earlyEight : Bool
  reracked : Bool
  foul : Foul
  before : Mask

/-- `pool_contact_state_t`. -/
structure ContactState where
  first : Nat
  railAfter : Bool
  deriving DecidableEq, Repr

/-- The player that does not move, `player ^ 1U`. -/
def other (player : Fin 2) : Fin 2 := player + 1

/-- The balls but the cue ball. -/
def objectBalls : List Nat := List.range' 1 (poolBallCount - 1)

def ballGroup (ball : Nat) : Group := if 1 ≤ ball ∧ ball ≤ 7 then .solids else if 9 ≤ ball ∧ ball ≤ 15 then .stripes else .open

def poolRulesRemaining (group : Group) (potted : Mask) : Nat :=
  objectBalls.countP fun ball => ballGroup ball = group ∧ ball ≠ 8 ∧ potted.getLsbD ball = false

def poolRulesReset : Rules := ⟨0, fun _ => .open, true, false, false, 0, false, false, .fair, 0⟩

def poolRulesLegalTarget (rules : Rules) (potted : Mask) (ball : Nat) : Bool :=
  if rules.complete ∨ ball = 0 ∨ ball ≥ poolBallCount ∨ potted.getLsbD ball then false
  else
    let group := rules.groups rules.player
    if group = .open then ball ≠ 8
    else if poolRulesRemaining group potted = 0 then ball = 8
    else ballGroup ball = group

def poolRulesBegin (rules : Rules) (potted : Mask) : Rules :=
  if rules.complete = false ∧ rules.pending = false then
    { rules with before := potted, pending := true, foul := .fair, reracked := false }
  else rules

/-- The foul of a shot; one that was found before stays. -/
def shotFoul (rules : Rules) (newly : Mask) (contacts : ContactState) : Foul :=
  if newly.getLsbD 0 then .scratch
  else if contacts.first = 0 then .noContact
  else if poolRulesLegalTarget rules rules.before contacts.first = false then .wrongFirst
  else if contacts.railAfter = false ∧ newly &&& 0xfffe = 0 then .noRail
  else rules.foul

/-- The groups after a fair shot, which the first ball of a group among the pots decides. -/
def assignGroups (rules : Rules) (wasBreak : Bool) (newly : Mask) (pots : List Nat) : Fin 2 → Group :=
  if wasBreak = false ∧ rules.groups rules.player = .open then
    match pots.find? fun ball => ballGroup ball ≠ .open ∧ newly.getLsbD ball with
    | some ball =>
      Function.update (Function.update rules.groups rules.player (ballGroup ball)) (other rules.player)
        (if ballGroup ball = .solids then .stripes else .solids)
    | none => rules.groups
  else rules.groups

/-- The end of a shot that potted no eight and was fair. -/
def finishFair (rules : Rules) (wasBreak : Bool) (newly : Mask) (pots : List Nat) : RuleResult × Rules :=
  let rules := { rules with groups := assignGroups rules wasBreak newly pots }
  if objectBalls.any fun ball => ball ≠ 8 ∧ newly.getLsbD ball ∧ (wasBreak ∨ ballGroup ball = rules.groups rules.player) then
    (.keepTurn, rules)
  else (.changeTurn, { rules with player := other rules.player })

/-- The end of a shot that potted the eight, not on a break. -/
def finishEight (rules : Rules) : RuleResult × Rules :=
  let group := rules.groups rules.player
  let earlyEight := decide (group = .open ∨ poolRulesRemaining group rules.before ≠ 0)
  (.result,
    { rules with
      earlyEight := earlyEight
      complete := true
      winner := if earlyEight ∨ rules.foul ≠ .fair then other rules.player else rules.player })

def poolRulesFinish (rules : Rules) (potted : Mask) (pots : List Nat) (contacts : ContactState) : RuleResult × Rules :=
  if rules.pending = false ∨ rules.complete then (.idle, rules)
  else
    let rules := { rules with pending := false }
    let newly := potted &&& ~~~rules.before
    let eight := newly.getLsbD 8
    let wasBreak := rules.breakShot
    if wasBreak ∧ eight then (.rerack, { poolRulesReset with player := rules.player, reracked := true })
    else
      let rules := { rules with foul := shotFoul rules newly contacts, breakShot := false }
      if eight then finishEight rules
      else if rules.foul ≠ .fair then (.ballInHand, { rules with player := other rules.player })
      else finishFair rules wasBreak newly pots

/-- The rules and the mask of a game. -/
structure Match where
  rules : Rules
  potted : Mask

def newMatch : Match := ⟨poolRulesReset, 0⟩

/-- What happens in a match: a shot begins, the cue ball is returned, and a shot ends with a mask, the pots in order and the contacts. -/
inductive Event where
  | begin | returnCue | finish (potted : Mask) (pots : List Nat) (contacts : ContactState)

/-- A match after an event; the end of a shot is followed as `pool_game_step` does. -/
def Match.play (m : Match) : Event → Match
  | .begin => { m with rules := poolRulesBegin m.rules m.potted }
  | .returnCue => { m with potted := m.potted &&& ~~~1 }
  | .finish potted pots contacts =>
    let finished := poolRulesFinish m.rules potted pots contacts
    ⟨finished.2, if finished.1 = .rerack then 0 else if finished.1 = .ballInHand then potted ||| 1 else potted⟩

/-- Balls are potted by shots only and stay potted; the pots are balls that the shot potted, and the first ball touched was on the
table. -/
def Match.Consistent (m : Match) : Event → Prop
  | .begin => True
  | .returnCue => True
  | .finish potted pots contacts =>
    (m.rules.pending = false → potted = m.potted) ∧
    (∀ ball, ball ≠ 0 → m.potted.getLsbD ball → potted.getLsbD ball) ∧
    (∀ ball ∈ pots, (potted &&& ~~~m.potted).getLsbD ball) ∧
    (contacts.first ≠ 0 → contacts.first < poolBallCount ∧ m.potted.getLsbD contacts.first = false)

/-! ## What every history keeps -/

/-- Both groups are open, or one player has the solids and the other the stripes. -/
def Split (groups : Fin 2 → Group) : Prop :=
  (∀ player, groups player = .open) ∨ ∃ player, groups player = .solids ∧ groups (other player) = .stripes

/-- The groups are split, and until the match is complete the eight is on the table, also before a shot that is pending. -/
structure Sound (m : Match) : Prop where
  split : Split m.rules.groups
  eight : m.rules.complete = false → m.potted.getLsbD 8 = false
  before : m.rules.complete = false → m.rules.pending = true → m.rules.before.getLsbD 8 = false

theorem other_other (player : Fin 2) : other (other player) = player := by
  revert player
  decide

theorem other_ne (player : Fin 2) : other player ≠ player := by
  revert player
  decide

theorem eq_other {mover player : Fin 2} (h : mover ≠ player) : mover = other player := by
  revert mover player
  decide

/-- The pots of a fair shot leave the groups split. -/
theorem split_assignGroups {rules : Rules} (h : Split rules.groups) (wasBreak : Bool) (newly : Mask) (pots : List Nat) :
    Split (assignGroups rules wasBreak newly pots) := by
  unfold assignGroups
  split
  · split
    · rename_i ball hfound
      have hgroup := List.find?_some hfound
      have hgroup : ballGroup ball ≠ .open := (of_decide_eq_true hgroup).1
      right
      cases hball : ballGroup ball with
      | «open» => exact absurd hball hgroup
      | solids =>
        refine ⟨rules.player, ?_, ?_⟩
        · rw [Function.update_of_ne (other_ne rules.player).symm, Function.update_self]
        · rw [Function.update_self]
          rfl
      | stripes =>
        refine ⟨other rules.player, ?_, ?_⟩
        · rw [Function.update_self]
          rfl
        · rw [other_other, Function.update_of_ne (other_ne rules.player).symm, Function.update_self]
    · exact h
  · exact h

/-- What the end of a shot leaves: the groups are split; the eight was not potted, the match is complete, or there is a new rack. -/
theorem poolRulesFinish_spec {rules : Rules} (h : Split rules.groups) (hpending : rules.pending = true)
    (hcomplete : rules.complete = false)
    (hbefore : rules.before.getLsbD 8 = false) (potted : Mask) (pots : List Nat) (contacts : ContactState) :
    Split (poolRulesFinish rules potted pots contacts).2.groups ∧ (poolRulesFinish rules potted pots contacts).2.pending = false ∧
    (potted.getLsbD 8 = false ∨ (poolRulesFinish rules potted pots contacts).2.complete = true ∨
      (poolRulesFinish rules potted pots contacts).1 = .rerack) := by
  have hnewly : (potted &&& ~~~rules.before).getLsbD 8 = potted.getLsbD 8 := by
    rw [BitVec.getLsbD_and, BitVec.getLsbD_not, hbefore]
    exact Bool.and_true _
  unfold poolRulesFinish
  rw [if_neg (by rw [hpending, hcomplete]; simp)]
  dsimp only
  rw [hnewly]
  split
  · exact ⟨Or.inl fun _ => rfl, rfl, Or.inr (Or.inr rfl)⟩
  · split
    · exact ⟨h, rfl, Or.inr (Or.inl rfl)⟩
    · rename_i height
      have height := Bool.eq_false_of_not_eq_true height
      split
      · exact ⟨h, rfl, Or.inl height⟩
      · unfold finishFair
        dsimp only
        split
        · exact ⟨split_assignGroups h _ _ _, rfl, Or.inl height⟩
        · exact ⟨split_assignGroups h _ _ _, rfl, Or.inl height⟩

theorem sound_newMatch : Sound newMatch := ⟨Or.inl fun _ => rfl, fun _ => rfl, fun _ h => absurd h Bool.false_ne_true⟩

theorem Sound.play {m : Match} (h : Sound m) {event : Event} (hevent : m.Consistent event) : Sound (m.play event) := by
  cases event with
  | begin =>
    show Sound { m with rules := poolRulesBegin m.rules m.potted }
    unfold poolRulesBegin
    split
    · exact ⟨h.split, h.eight, fun hcomplete _ => h.eight hcomplete⟩
    · exact h
  | returnCue =>
    refine ⟨h.split, fun hcomplete => ?_, h.before⟩
    show (m.potted &&& ~~~1).getLsbD 8 = false
    rw [BitVec.getLsbD_and, h.eight hcomplete, Bool.false_and]
  | finish potted pots contacts =>
    by_cases hidle : m.rules.pending = false ∨ m.rules.complete = true
    · have hplay : m.play (.finish potted pots contacts) = ⟨m.rules, potted⟩ := by
        unfold Match.play poolRulesFinish
        dsimp only
        rw [if_pos hidle]
        rfl
      rw [hplay]
      refine ⟨h.split, fun hcomplete => ?_, h.before⟩
      have hpending : m.rules.pending = false := hidle.resolve_right (by rw [hcomplete]; exact Bool.false_ne_true)
      rw [hevent.1 hpending]
      exact h.eight hcomplete
    · obtain ⟨hpending, hcomplete⟩ := not_or.1 hidle
      have hpending := Bool.eq_true_of_not_eq_false hpending
      have hcomplete := Bool.eq_false_of_not_eq_true hcomplete
      obtain ⟨hsplit, hdone, hend⟩ := poolRulesFinish_spec h.split hpending hcomplete (h.before hcomplete hpending) potted pots contacts
      refine ⟨hsplit, fun hopen => ?_, fun _ hagain => absurd (hdone.symm.trans hagain) Bool.false_ne_true⟩
      show (if _ then (0 : Mask) else if _ then potted ||| 1 else potted).getLsbD 8 = false
      rcases hend with height | hover | hrerack
      · split
        · rfl
        · split
          · rw [BitVec.getLsbD_or, height]
            rfl
          · exact height
      · exact absurd (hover.symm.trans hopen) (by decide)
      · rw [if_pos hrerack]
        rfl

/-! ## Legal targets -/

/-- All balls of both groups are potted. -/
def AllPotted (potted : Mask) : Prop := poolRulesRemaining .solids potted = 0 ∧ poolRulesRemaining .stripes potted = 0

theorem mem_objectBalls {ball : Nat} : ball ∈ objectBalls ↔ ball ≠ 0 ∧ ball < poolBallCount := by
  have hcount : poolBallCount = 16 := rfl
  rw [objectBalls, List.mem_range'_1]
  omega

/-- There is a ball of a group on the table unless none remains. -/
theorem poolRulesRemaining_ne_zero {group : Group} {potted : Mask} :
    poolRulesRemaining group potted ≠ 0 ↔
      ∃ ball, ball ≠ 0 ∧ ball < poolBallCount ∧ ballGroup ball = group ∧ ball ≠ 8 ∧ potted.getLsbD ball = false := by
  rw [← Nat.pos_iff_ne_zero, poolRulesRemaining, List.countP_pos_iff]
  constructor
  · rintro ⟨ball, hmem, hball⟩
    obtain ⟨hzero, hlt⟩ := mem_objectBalls.1 hmem
    obtain ⟨hgroup, height, hpotted⟩ := of_decide_eq_true hball
    exact ⟨ball, hzero, hlt, hgroup, height, hpotted⟩
  · rintro ⟨ball, hzero, hlt, hgroup, height, hpotted⟩
    exact ⟨ball, mem_objectBalls.2 ⟨hzero, hlt⟩, decide_eq_true ⟨hgroup, height, hpotted⟩⟩

/-- A ball but the cue ball and the eight is of a group. -/
theorem ballGroup_cases {ball : Nat} (hzero : ball ≠ 0) (hlt : ball < poolBallCount) (height : ball ≠ 8) :
    ballGroup ball = .solids ∨ ballGroup ball = .stripes := by
  have hcount : poolBallCount = 16 := rfl
  unfold ballGroup
  split
  · exact Or.inl rfl
  · rw [if_pos (by omega)]
    exact Or.inr rfl

theorem poolRulesLegalTarget_iff {rules : Rules} {potted : Mask} {ball : Nat} :
    poolRulesLegalTarget rules potted ball = true ↔
      rules.complete = false ∧ ball ≠ 0 ∧ ball < poolBallCount ∧ potted.getLsbD ball = false ∧
        (if rules.groups rules.player = .open then ball ≠ 8
          else if poolRulesRemaining (rules.groups rules.player) potted = 0 then ball = 8
          else ballGroup ball = rules.groups rules.player) := by
  unfold poolRulesLegalTarget
  dsimp only
  split
  · rename_i hrefused
    refine iff_of_false Bool.false_ne_true ?_
    rintro ⟨hcomplete, hzero, hlt, hpotted, -⟩
    rcases hrefused with h | h | h | h
    · exact absurd (h.symm.trans hcomplete) (by decide)
    · exact hzero h
    · exact absurd hlt (Nat.not_lt.2 h)
    · exact absurd (h.symm.trans hpotted) (by decide)
  · rename_i haccepted
    simp only [not_or, Bool.not_eq_true, ge_iff_le, not_le] at haccepted
    obtain ⟨hcomplete, hzero, hlt, hpotted⟩ := haccepted
    simp only [hcomplete, hzero, hlt, hpotted, true_and, ne_eq, not_false_eq_true]
    split
    · exact decide_eq_true_iff
    · split
      · exact decide_eq_true_iff
      · exact decide_eq_true_iff

/-- A ball is a legal target, unless the groups are open and all their balls are potted. -/
theorem exists_legalTarget_iff {m : Match} (h : Sound m) (hcomplete : m.rules.complete = false) :
    (∃ ball, poolRulesLegalTarget m.rules m.potted ball = true) ↔
      ¬(m.rules.groups m.rules.player = .open ∧ AllPotted m.potted) := by
  have height := h.eight hcomplete
  constructor
  · rintro ⟨ball, hlegal⟩ ⟨hopen, hsolids, hstripes⟩
    obtain ⟨-, hzero, hlt, hpotted, hball⟩ := poolRulesLegalTarget_iff.1 hlegal
    rw [if_pos hopen] at hball
    rcases ballGroup_cases hzero hlt hball with hgroup | hgroup
    · exact poolRulesRemaining_ne_zero.2 ⟨ball, hzero, hlt, hgroup, hball, hpotted⟩ hsolids
    · exact poolRulesRemaining_ne_zero.2 ⟨ball, hzero, hlt, hgroup, hball, hpotted⟩ hstripes
  · intro hplayable
    by_cases hopen : m.rules.groups m.rules.player = .open
    · have hleft : poolRulesRemaining .solids m.potted ≠ 0 ∨ poolRulesRemaining .stripes m.potted ≠ 0 := by
        by_contra hnone
        obtain ⟨hsolids, hstripes⟩ := not_or.1 hnone
        exact hplayable ⟨hopen, of_not_not hsolids, of_not_not hstripes⟩
      obtain ⟨ball, hzero, hlt, hne, hpotted⟩ :
          ∃ ball, ball ≠ 0 ∧ ball < poolBallCount ∧ ball ≠ 8 ∧ m.potted.getLsbD ball = false := by
        rcases hleft with hleft | hleft
        · obtain ⟨ball, hzero, hlt, -, hne, hpotted⟩ := poolRulesRemaining_ne_zero.1 hleft
          exact ⟨ball, hzero, hlt, hne, hpotted⟩
        · obtain ⟨ball, hzero, hlt, -, hne, hpotted⟩ := poolRulesRemaining_ne_zero.1 hleft
          exact ⟨ball, hzero, hlt, hne, hpotted⟩
      refine ⟨ball, poolRulesLegalTarget_iff.2 ⟨hcomplete, hzero, hlt, hpotted, ?_⟩⟩
      rw [if_pos hopen]
      exact hne
    · by_cases hcleared : poolRulesRemaining (m.rules.groups m.rules.player) m.potted = 0
      · refine ⟨8, poolRulesLegalTarget_iff.2 ⟨hcomplete, by decide, by decide, height, ?_⟩⟩
        rw [if_neg hopen, if_pos hcleared]
      · obtain ⟨ball, hzero, hlt, hgroup, -, hpotted⟩ := poolRulesRemaining_ne_zero.1 hcleared
        refine ⟨ball, poolRulesLegalTarget_iff.2 ⟨hcomplete, hzero, hlt, hpotted, ?_⟩⟩
        rw [if_neg hopen, if_neg hcleared]
        exact hgroup

/-- A break that pots the fourteen balls of both groups. -/
def clearingBreak : List Event := [.begin, .finish 0xfefe [1, 2, 3, 4, 5, 6, 7, 9, 10, 11, 12, 13, 14, 15] ⟨1, true⟩]

theorem along_clearingBreak : Along Match.play Match.Consistent newMatch clearingBreak := by
  refine ⟨trivial, ⟨fun h => absurd h (by decide), fun ball _ hball => ?_, ?_, fun _ => ⟨by decide, rfl⟩⟩, trivial⟩
  · have hnone : (0#16).getLsbD ball = false := BitVec.getLsbD_zero
    exact absurd (hnone.symm.trans hball) Bool.false_ne_true
  · show ∀ ball ∈ [1, 2, 3, 4, 5, 6, 7, 9, 10, 11, 12, 13, 14, 15], (0xfefe &&& ~~~(0#16)).getLsbD ball = true
    decide

/-- After that break the groups are open, the player moves again, and no ball is a legal target. -/
theorem match_unplayable_break :
    Along Match.play Match.Consistent newMatch clearingBreak ∧
    (clearingBreak.foldl Match.play newMatch).rules.complete = false ∧ (clearingBreak.foldl Match.play newMatch).rules.pending = false ∧
    ¬∃ ball, poolRulesLegalTarget (clearingBreak.foldl Match.play newMatch).rules (clearingBreak.foldl Match.play newMatch).potted ball =
      true := by
  have hsound : Sound (clearingBreak.foldl Match.play newMatch) :=
    along_clearingBreak.invariant Sound (fun m event h hevent => h.play hevent) sound_newMatch
  refine ⟨along_clearingBreak, rfl, rfl, fun hlegal => ?_⟩
  exact (exists_legalTarget_iff hsound rfl).1 hlegal ⟨rfl, rfl, rfl⟩

/-- In every match that is not complete and has no shot pending the groups are split, and a ball is a legal target unless the groups are
still open and all their balls are potted. -/
theorem match_playable {events : List Event} (h : Along Match.play Match.Consistent newMatch events) :
    (events.foldl Match.play newMatch).rules.complete = false → (events.foldl Match.play newMatch).rules.pending = false →
      Split (events.foldl Match.play newMatch).rules.groups ∧
      ((∃ ball, poolRulesLegalTarget (events.foldl Match.play newMatch).rules (events.foldl Match.play newMatch).potted ball = true) ↔
        ¬((∀ player, (events.foldl Match.play newMatch).rules.groups player = .open) ∧
          AllPotted (events.foldl Match.play newMatch).potted)) := by
  intro hcomplete _
  have hsound : Sound (events.foldl Match.play newMatch) :=
    h.invariant Sound (fun m event hm hevent => hm.play hevent) sound_newMatch
  refine ⟨hsound.split, (exists_legalTarget_iff hsound hcomplete).trans (not_congr (and_congr_left fun _ => ?_))⟩
  constructor
  · intro hopen
    rcases hsound.split with hall | ⟨player, hsolids, hstripes⟩
    · exact hall
    · by_cases hplayer : (events.foldl Match.play newMatch).rules.player = player
      · rw [hplayer, hsolids] at hopen
        exact absurd hopen (by decide)
      · rw [eq_other hplayer, hstripes] at hopen
        exact absurd hopen (by decide)
  · exact fun hall => hall _

/-- A shot without a pot leaves a legal target. -/
theorem match_playable_miss :
    ∃ ball, poolRulesLegalTarget (List.foldl Match.play newMatch [.begin, .finish 0 [] ⟨1, true⟩]).rules
      (List.foldl Match.play newMatch [.begin, .finish 0 [] ⟨1, true⟩]).potted ball = true := by
  have hrun : Along Match.play Match.Consistent newMatch [.begin, .finish 0 [] ⟨1, true⟩] :=
    ⟨trivial, ⟨fun h => absurd h (by decide), fun _ _ hball => hball, fun _ hmem => absurd hmem List.not_mem_nil,
      fun _ => ⟨by decide, rfl⟩⟩, trivial⟩
  exact (match_playable hrun rfl rfl).2.2 fun hstuck => absurd hstuck.2.1 (by decide)

end Pool
end TabOS
