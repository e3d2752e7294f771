import TabOS.Snake.Game
import Mathlib.Data.List.Chain
import Mathlib.Data.List.Perm.Basic
import Mathlib.Data.List.Nodup

/-!
# The invariant of the game

The body is a path of distinct cells on the board, the food lies beside it until the game is won, and the turns that are queued never
turn the head into its neck.
-/

namespace TabOS
namespace Snake

/-- Two cells that are next to each other in a row or in a column. -/
def Adjacent (a b : Nat) : Prop :=
  (a % columns = b % columns ∧ (a / columns + 1 = b / columns ∨ b / columns + 1 = a / columns)) ∨
  (a / columns = b / columns ∧ (a % columns + 1 = b % columns ∨ b % columns + 1 = a % columns))

/-- A turn to another direction that is not the opposite one. -/
def Turns (previous direction : Direction) : Prop := direction ≠ previous ∧ direction.opposite ≠ previous

/-- The distinct cells of the body, each next to the one before it. -/
structure Body (cells : List Nat) : Prop where
  on_board : ∀ cell ∈ cells, cell < capacity
  nodup : cells.Nodup
  adjacent : cells.IsChain Adjacent
  length_ge : 4 ≤ cells.length
  length_le : cells.length ≤ capacity

/-- The head was moved from the neck in the direction of the game, and the turns that are queued go on from there. -/
structure Steered (game : Game) : Prop where
  moved : ∃ head neck rest, game.cells = head :: neck :: rest ∧ nextCell game.direction neck = some head
  turns : (game.direction :: game.turns).IsChain Turns
  count : game.turns.length ≤ 2

/-- The invariant of a game. -/
structure Game.Valid (game : Game) : Prop where
  body : Body game.cells
  won : game.mode = .won ↔ game.cells.length = capacity
  food : game.mode ≠ .won → game.food < capacity ∧ game.food ∉ game.cells
  steered : game.mode = .playing ∨ game.mode = .paused → Steered game
  best : snakeGameScore game ≤ game.best

variable {game game' : Game} {cells : List Nat} {direction other : Direction} {cell next head neck : Nat}

/-! ## Cells -/

/-- What the next cell in each direction is. -/
theorem nextCell_eq (h : nextCell direction cell = some next) : next < capacity ∧
    ((direction = .up ∧ next + columns = cell) ∨ (direction = .right ∧ next = cell + 1 ∧ cell % columns + 1 < columns) ∨
      (direction = .down ∧ next = cell + columns) ∨ (direction = .left ∧ next + 1 = cell ∧ 0 < cell % columns)) := by
  unfold nextCell at h
  cases direction <;> dsimp only at h <;> rw [Option.ite_none_left_eq_some] at h <;> obtain ⟨hboard, heq⟩ := h <;>
    have heq := Option.some.inj heq <;>
    simp only [columns, rows, capacity, reduceCtorEq, false_and, true_and, false_or, or_false] at hboard heq ⊢ <;> omega

theorem nextCell_adjacent (h : nextCell direction cell = some next) : next < capacity ∧ Adjacent next cell := by
  obtain ⟨hlt, hcases⟩ := nextCell_eq h
  refine ⟨hlt, ?_⟩
  unfold Adjacent columns at *
  rcases hcases with ⟨-, heq⟩ | ⟨-, heq, hx⟩ | ⟨-, heq⟩ | ⟨-, heq, hx⟩ <;> omega

/-- Only the opposite direction leads back. -/
theorem nextCell_back (h : nextCell direction neck = some head) (hback : nextCell other head = some neck) :
    other.opposite = direction := by
  obtain ⟨-, hcases⟩ := nextCell_eq h
  obtain ⟨-, hcases'⟩ := nextCell_eq hback
  unfold columns at hcases hcases'
  rcases hcases with ⟨rfl, heq⟩ | ⟨rfl, heq, hx⟩ | ⟨rfl, heq⟩ | ⟨rfl, heq, hx⟩ <;>
    rcases hcases' with ⟨rfl, heq'⟩ | ⟨rfl, heq', hx'⟩ | ⟨rfl, heq'⟩ | ⟨rfl, heq', hx'⟩ <;> first | rfl | omega

/-! ## The food -/

/-- The cells of a list that are free are found one after the other. -/
theorem freeCell_spec (occupied : List Nat) (freeIndex : Nat) (list : List Nat)
    (h : freeIndex < (list.filter fun cell => decide (cell ∉ occupied)).length) :
    ∃ cell, freeCell occupied freeIndex list = some cell ∧ cell ∈ list ∧ cell ∉ occupied := by
  induction list generalizing freeIndex with
  | nil => exact absurd h (Nat.not_lt_zero _)
  | cons cell rest ih =>
    rw [freeCell]
    by_cases hmem : cell ∈ occupied
    · rw [List.filter_cons_of_neg (by simpa using hmem)] at h
      rw [if_pos hmem]
      obtain ⟨found, hfound, hrest, hfree⟩ := ih freeIndex h
      exact ⟨found, hfound, List.mem_cons_of_mem _ hrest, hfree⟩
    · rw [List.filter_cons_of_pos (by simpa using hmem), List.length_cons] at h
      rw [if_neg hmem]
      by_cases hzero : freeIndex = 0
      · rw [if_pos hzero]
        exact ⟨cell, rfl, List.mem_cons_self, hmem⟩
      · rw [if_neg hzero]
        obtain ⟨found, hfound, hrest, hfree⟩ := ih (freeIndex - 1) (by omega)
        exact ⟨found, hfound, List.mem_cons_of_mem _ hrest, hfree⟩

/-- As many cells are free as the body leaves. -/
theorem length_free (hnodup : cells.Nodup) (hboard : ∀ cell ∈ cells, cell < capacity) :
    ((List.range capacity).filter fun cell => decide (cell ∉ cells)).length = capacity - cells.length := by
  have hused : ((List.range capacity).filter fun cell => decide (cell ∈ cells)).Perm cells := by
    refine (List.perm_ext_iff_of_nodup (List.nodup_range.filter _) hnodup).2 fun cell => ?_
    rw [List.mem_filter, List.mem_range, decide_eq_true_iff]
    exact ⟨fun h => h.2, fun h => ⟨hboard cell h, h⟩⟩
  have htotal := List.length_eq_length_filter_add (l := List.range capacity) fun cell => decide (cell ∈ cells)
  rw [List.length_range, hused.length_eq] at htotal
  have hnot : ((List.range capacity).filter fun cell => decide (cell ∉ cells)) =
      (List.range capacity).filter fun cell => !decide (cell ∈ cells) := by
    simp only [decide_not]
  rw [hnot]
  omega

/-- While a cell is free, there is a place for the food. -/
theorem placeFood_spec (hbody : Body game.cells) (hfree : game.cells.length < capacity) :
    ∃ random food, placeFood game = some { game with random := random, food := food } ∧ food < capacity ∧ food ∉ game.cells ∧
      ∃ freeIndex, freeCell game.cells freeIndex (List.range capacity) = some food := by
  have hpositive : 0 < capacity - game.cells.length := by omega
  have hlength := length_free hbody.nodup hbody.on_board
  have hindex := Nat.mod_lt (scramble game.random).toNat hpositive
  obtain ⟨cell, hcell, hmem, hnot⟩ := freeCell_spec game.cells ((scramble game.random).toNat % (capacity - game.cells.length))
    (List.range capacity) (by rw [hlength]; exact hindex)
  refine ⟨scramble game.random, cell, ?_, List.mem_range.1 hmem, hnot, _, hcell⟩
  unfold placeFood
  dsimp only
  rw [if_neg (Nat.pos_iff_ne_zero.1 hpositive), hcell]
  rfl

/-! ## The operations -/

/-- A game whose food is placed is valid when it was but for the food. -/
theorem placeFood_valid (hbody : Body game.cells) (hfree : game.cells.length < capacity) (hmode : game.mode ≠ .won)
    (hsteered : game.mode = .playing ∨ game.mode = .paused → Steered game) (hbest : snakeGameScore game ≤ game.best) :
    ∃ game', placeFood game = some game' ∧ game'.Valid ∧ game'.cells = game.cells := by
  obtain ⟨random, food, hplace, hfood, hnot, -⟩ := placeFood_spec hbody hfree
  refine ⟨_, hplace, ⟨hbody, ?_, fun _ => ⟨hfood, hnot⟩, fun hplaying => ?_, hbest⟩, rfl⟩
  · exact iff_of_false hmode (Nat.ne_of_lt hfree)
  · obtain ⟨hmoved, hturns, hcount⟩ := hsteered hplaying
    exact ⟨hmoved, hturns, hcount⟩

instance : DecidableRel Adjacent := fun _ _ => inferInstanceAs (Decidable (_ ∨ _))

/-- The body at the start. -/
theorem body_start : Body ((List.range 4).map fun i => 9 * columns + 10 - i) := by
  refine ⟨by decide, by decide, by decide, by decide, by decide⟩

/-- A game is started, whatever it was before. -/
theorem snakeGameStart_spec (now : UInt64) (game : Game) :
    ∃ game', snakeGameStart now game = some game' ∧ game'.Valid ∧ game'.cells = (List.range 4).map fun i => 9 * columns + 10 - i := by
  unfold snakeGameStart
  refine placeFood_valid body_start (show 4 < capacity by decide) (show Mode.playing ≠ .won by decide) (fun _ => ⟨?_, ?_, ?_⟩)
    (Nat.zero_le _)
  · exact ⟨_, _, _, rfl, show nextCell .right (9 * columns + 10 - 1) = some (9 * columns + 10 - 0) by decide⟩
  · exact List.isChain_singleton _
  · exact Nat.zero_le 2

theorem snakeGameInit_spec (seed : UInt32) : ∃ game, snakeGameInit seed = some game ∧ game.Valid := by
  unfold snakeGameInit
  dsimp only
  split
  · rename_i hnone
    obtain ⟨game, hstart, -⟩ := snakeGameStart_spec 0 _
    exact absurd (hstart.symm.trans hnone) (Option.some_ne_none _)
  · rename_i started hstarted
    obtain ⟨game, hstart, hvalid, hcells⟩ := snakeGameStart_spec 0 _
    obtain rfl := Option.some.inj (hstart.symm.trans hstarted)
    have hlength : game.cells.length ≠ capacity := by
      rw [hcells]
      decide
    refine ⟨_, rfl, hvalid.body, iff_of_false (show Mode.title ≠ .won by decide) hlength,
      fun _ => hvalid.food fun hwon => hlength (hvalid.won.1 hwon), ?_,
      hvalid.best⟩
    rintro (htitle | htitle) <;> exact nomatch htitle

/-- A direction that is queued goes on from the last one. -/
theorem snakeGameTurn_valid (h : game.Valid) (direction : Int) : (snakeGameTurn direction game).2.Valid := by
  unfold snakeGameTurn
  split
  · exact h
  · rename_i direction _
    split
    · exact h
    · rename_i hguard
      dsimp only
      split
      · exact h
      · rename_i hturn
        obtain ⟨hplaying, hcount⟩ := not_or.1 hguard
        obtain ⟨hmoved, hturns, hle⟩ := h.steered (Or.inl (not_not.1 hplaying))
        refine ⟨h.body, h.won, h.food, fun _ => ⟨hmoved, ?_, ?_⟩, h.best⟩
        · show (game.direction :: (game.turns ++ [direction])).IsChain Turns
          rw [← List.cons_append, List.isChain_append]
          refine ⟨hturns, List.isChain_singleton _, ?_⟩
          intro previous hprevious next hnext
          obtain rfl := Option.some.inj hnext
          have hlast : previous = game.turns.getLast?.getD game.direction := by
            rw [List.getLast?_cons] at hprevious
            exact (Option.some.inj hprevious).symm
          rw [← hlast] at hturn
          exact not_or.1 hturn
        · show (game.turns ++ [direction]).length ≤ 2
          rw [List.length_append, List.length_singleton]
          omega

theorem snakeGamePause_valid (h : game.Valid) (now : UInt64) : (snakeGamePause now game).Valid := by
  unfold snakeGamePause
  split
  · rename_i hmode
    obtain ⟨hmoved, hturns, -⟩ := h.steered (Or.inl hmode)
    have hwon : game.mode ≠ .won := by
      rw [hmode]
      decide
    refine ⟨h.body, iff_of_false (show Mode.paused ≠ .won by decide) fun hlength => hwon (h.won.2 hlength), fun _ => h.food hwon,
      fun _ => ⟨hmoved, ?_, ?_⟩, h.best⟩
    · exact List.isChain_singleton _
    · exact Nat.zero_le 2
  · rename_i hmode
    obtain ⟨hmoved, hturns, hcount⟩ := h.steered (Or.inr hmode)
    have hwon : game.mode ≠ .won := by
      rw [hmode]
      decide
    exact ⟨h.body, iff_of_false (show Mode.playing ≠ .won by decide) fun hlength => hwon (h.won.2 hlength), fun _ => h.food hwon,
      fun _ => ⟨hmoved, hturns, hcount⟩, h.best⟩
  · exact h

/-- The body after the head has moved to a free cell. -/
theorem Body.move {retained : List Nat} (h : Body cells) (hretained : retained = cells ∨ retained = cells.dropLast)
    (hhead : cells.head? = some head) (hnext : next < capacity) (hadjacent : Adjacent next head) (hfree : next ∉ retained)
    (hlength : (next :: retained).length ≤ capacity) : Body (next :: retained) := by
  have hpre : retained <+: cells := by
    rcases hretained with rfl | rfl
    · exact List.prefix_refl _
    · exact List.dropLast_prefix _
  have hlong : 3 ≤ retained.length := by
    have hge := h.length_ge
    rcases hretained with rfl | rfl
    · omega
    · rw [List.length_dropLast]
      omega
  refine ⟨?_, ?_, ?_, by rw [List.length_cons]; omega, hlength⟩
  · intro cell hmem
    rcases List.mem_cons.1 hmem with rfl | hmem
    · exact hnext
    · exact h.on_board cell (hpre.subset hmem)
  · exact List.nodup_cons.2 ⟨hfree, h.nodup.sublist hpre.sublist⟩
  · refine List.isChain_cons.2 ⟨fun cell hcell => ?_, h.adjacent.prefix hpre⟩
    have hsame : retained.head? = cells.head? := by
      obtain ⟨rest, hrest⟩ := hpre
      rw [← hrest, List.head?_append_of_ne_nil _ (List.length_pos_iff.1 (by omega))]
    rw [hsame, hhead] at hcell
    obtain rfl := Option.some.inj hcell
    exact hadjacent

/-- A game whose head has moved into the food. -/
theorem eat_valid (hbody : Body game.cells) (hmode : game.mode = .playing) (hsteered : Steered game) :
    ∃ game', eat game = some game' ∧ game'.Valid ∧ game'.cells = game.cells := by
  unfold eat
  dsimp only
  have hbest : snakeGameScore game ≤ if snakeGameScore game > game.best then snakeGameScore game else game.best := by
    split <;> omega
  have hsteered' : ∀ best, Steered { game with best := best } := by
    obtain ⟨hmoved, hturns, hcount⟩ := hsteered
    exact fun _ => ⟨hmoved, hturns, hcount⟩
  split
  · rename_i hfull
    exact ⟨_, rfl, ⟨hbody, iff_of_true rfl hfull, fun hwon => absurd rfl hwon, fun hplaying => hplaying.elim (nomatch ·) (nomatch ·),
      hbest⟩, rfl⟩
  · rename_i hroom
    have hle := hbody.length_le
    refine placeFood_valid hbody (Nat.lt_of_le_of_ne hle hroom) ?_ (fun _ => hsteered' _) hbest
    show game.mode ≠ .won
    rw [hmode]
    decide

theorem Game.Valid.deadline (h : game.Valid) (deadline : UInt64) : ({ game with deadline := deadline } : Game).Valid := by
  refine ⟨h.body, h.won, h.food, fun hmode => ?_, h.best⟩
  obtain ⟨hmoved, hturns, hcount⟩ := h.steered hmode
  exact ⟨hmoved, hturns, hcount⟩

/-- The body stays, or the head moves by one cell. -/
def Moves (cells cells' : List Nat) : Prop :=
  cells' = cells ∨ ∃ head next, cells.head? = some head ∧ Adjacent next head ∧ (cells' = next :: cells ∨ cells' = next :: cells.dropLast)

/-- An update moves the head by one cell, or leaves the body. -/
theorem snakeGameUpdate_spec (h : game.Valid) (now : UInt64) :
    ∃ moved game', snakeGameUpdate now game = some (moved, game') ∧ game'.Valid ∧ Moves game.cells game'.cells := by
  unfold snakeGameUpdate
  split
  · exact ⟨_, _, rfl, h, Or.inl rfl⟩
  · rename_i hguard
    obtain ⟨hnot, -⟩ := not_or.1 hguard
    have hplaying : game.mode = .playing := not_not.1 hnot
    have hwon : game.mode ≠ .won := by
      rw [hplaying]
      decide
    have hnotfull : game.cells.length ≠ capacity := fun hlength => hwon (h.won.2 hlength)
    obtain ⟨hfood, hfoodfree⟩ := h.food hwon
    obtain ⟨⟨head, neck, rest, hcells, -⟩, hturns, hcount⟩ := h.steered (Or.inl hplaying)
    have hturns' : (game.heading :: game.turns.tail).IsChain Turns ∧ game.turns.tail.length ≤ 2 := by
      unfold Game.heading
      cases hqueue : game.turns with
      | nil => exact ⟨List.isChain_singleton _, Nat.zero_le 2⟩
      | cons first later =>
        rw [hqueue] at hturns hcount
        rw [List.length_cons] at hcount
        exact ⟨hturns.tail, by rw [List.tail_cons]; omega⟩
    have hover : ({ game with direction := game.heading, turns := game.turns.tail, mode := .over } : Game).Valid :=
      ⟨h.body, iff_of_false (show Mode.over ≠ .won by decide) hnotfull, fun _ => ⟨hfood, hfoodfree⟩,
        fun hmode => hmode.elim (nomatch ·) (nomatch ·), h.best⟩
    dsimp only
    have hhead : game.cells.head? = some head := by rw [hcells]; rfl
    have hheadD : game.cells.headD 0 = head := by rw [hcells]; rfl
    rw [hheadD]
    split
    · exact ⟨_, _, rfl, hover, Or.inl rfl⟩
    · rename_i next hnext
      obtain ⟨hlt, hadjacent⟩ := nextCell_adjacent hnext
      have hsteered : ∀ retained food best, retained.head? = some head → Steered { game with
          cells := next :: retained, food := food, best := best, direction := game.heading, turns := game.turns.tail } := by
        intro retained food best hfirst
        obtain ⟨rest', rfl⟩ : ∃ rest', retained = head :: rest' := List.head?_eq_some_iff.1 hfirst
        exact ⟨⟨next, head, rest', rfl, hnext⟩, hturns'.1, hturns'.2⟩
      by_cases hgrowing : next = game.food
      · rw [decide_eq_true hgrowing]
        simp only [if_true]
        split
        · exact ⟨_, _, rfl, hover, Or.inl rfl⟩
        · rename_i hfree
          have hbody := h.body.move (Or.inl rfl) hhead hlt hadjacent hfree (Nat.lt_of_le_of_ne h.body.length_le hnotfull)
          have hsteered' := hsteered game.cells game.food game.best hhead
          obtain ⟨game', heat, hvalid, hcells'⟩ := @eat_valid { game with
            cells := next :: game.cells, direction := game.heading, turns := game.turns.tail } hbody hplaying hsteered'
          rw [heat]
          exact ⟨_, _, rfl, hvalid.deadline _, Or.inr ⟨head, next, hhead, hadjacent, Or.inl hcells'⟩⟩
      · rw [decide_eq_false hgrowing]
        simp only [Bool.false_eq_true, if_false]
        split
        · exact ⟨_, _, rfl, hover, Or.inl rfl⟩
        · rename_i hfree
          have hlength : (next :: game.cells.dropLast).length = game.cells.length := by
            rw [List.length_cons, List.length_dropLast, hcells]
            rfl
          have hbody := h.body.move (Or.inr rfl) hhead hlt hadjacent hfree (by rw [hlength]; exact h.body.length_le)
          have hfirst : game.cells.dropLast.head? = some head := by
            have hge := h.body.length_ge
            rw [hcells] at hge ⊢
            rfl
          refine ⟨_, _, rfl, ⟨hbody, iff_of_false hwon ?_, fun _ => ⟨hfood, ?_⟩, fun _ => ?_, ?_⟩,
            Or.inr ⟨head, next, hhead, hadjacent, Or.inr rfl⟩⟩
          · show (next :: game.cells.dropLast).length ≠ capacity
            rw [hlength]
            exact hnotfull
          · show game.food ∉ next :: game.cells.dropLast
            rw [List.mem_cons, not_or]
            exact ⟨fun heq => hgrowing heq.symm, fun hmem => hfoodfree (List.dropLast_subset _ hmem)⟩
          · obtain ⟨hmoved, hturns'', hcount''⟩ := hsteered game.cells.dropLast game.food game.best hfirst
            exact ⟨hmoved, hturns'', hcount''⟩
          · show ((next :: game.cells.dropLast).length - 4) * 10 ≤ game.best
            rw [hlength]
            exact h.best

/-! ## Whole games -/

/-- The next direction does not lead from the head to the neck. -/
theorem Steered.heading (h : Steered game) :
    ∃ head neck rest, game.cells = head :: neck :: rest ∧ nextCell game.heading head ≠ some neck := by
  obtain ⟨⟨head, neck, rest, hcells, hmoved⟩, hturns, -⟩ := h
  refine ⟨head, neck, rest, hcells, fun hback => ?_⟩
  have hopposite := nextCell_back hmoved hback
  unfold Game.heading at hopposite
  cases hqueue : game.turns with
  | nil =>
    rw [hqueue] at hopposite
    revert hopposite
    show game.direction.opposite = game.direction → False
    cases game.direction <;> exact nofun
  | cons first later =>
    rw [hqueue] at hopposite hturns
    exact (List.isChain_cons_cons.1 hturns).1.2 hopposite

theorem step_valid (h : game.Valid) (operation : Operation) : ∃ game', step operation game = some game' ∧ game'.Valid := by
  cases operation with
  | start now =>
    obtain ⟨game', hstart, hvalid, -⟩ := snakeGameStart_spec now game
    exact ⟨game', hstart, hvalid⟩
  | turn direction => exact ⟨_, rfl, snakeGameTurn_valid h direction⟩
  | pause now => exact ⟨_, rfl, snakeGamePause_valid h now⟩
  | update now =>
    obtain ⟨moved, game', hupdate, hvalid, -⟩ := snakeGameUpdate_spec h now
    refine ⟨game', ?_, hvalid⟩
    show (snakeGameUpdate now game).map Prod.snd = some game'
    rw [hupdate]
    rfl

theorem run_valid (h : game.Valid) (operations : List Operation) : ∃ game', run operations game = some game' ∧ game'.Valid := by
  induction operations generalizing game with
  | nil => exact ⟨game, rfl, h⟩
  | cons operation operations ih =>
    obtain ⟨game₁, hstep, hvalid⟩ := step_valid h operation
    obtain ⟨game', hrun, hvalid'⟩ := ih hvalid
    refine ⟨game', ?_, hvalid'⟩
    show (step operation game).bind (run operations) = some game'
    rw [hstep]
    exact hrun

/-- From any seed, after any operations at any times, no division by the number of free cells has failed and the body is a path of
distinct cells on the board; unless the game is won, which takes the whole board, the food lies beside it and there is a cell for each
index of a free one; the direction that comes next does not lead into the neck; the best score is at least the score; and an update moves
the head by one cell, or leaves the body. -/
theorem game_invariant (seed : UInt32) (operations : List Operation) :
    ∃ initial game, snakeGameInit seed = some initial ∧ run operations initial = some game ∧
      ((∀ cell ∈ game.cells, cell < capacity) ∧ game.cells.Nodup ∧ game.cells.IsChain Adjacent) ∧
      (4 ≤ game.cells.length ∧ game.cells.length ≤ capacity) ∧
      (game.mode = .won → game.cells.length = capacity) ∧
      (game.mode ≠ .won → game.food < capacity ∧ game.food ∉ game.cells ∧ 0 < capacity - game.cells.length ∧
        ∀ freeIndex < capacity - game.cells.length, (freeCell game.cells freeIndex (List.range capacity)).isSome) ∧
      (game.mode = .playing ∨ game.mode = .paused →
        ∃ head neck rest, game.cells = head :: neck :: rest ∧ nextCell game.heading head ≠ some neck) ∧
      snakeGameScore game ≤ game.best ∧
      ∀ now, ∃ moved game', snakeGameUpdate now game = some (moved, game') ∧ Moves game.cells game'.cells := by
  obtain ⟨initial, hinitial, hvalid⟩ := snakeGameInit_spec seed
  obtain ⟨game, hrun, h⟩ := run_valid hvalid operations
  refine ⟨initial, game, hinitial, hrun, ⟨h.body.on_board, h.body.nodup, h.body.adjacent⟩, ⟨h.body.length_ge, h.body.length_le⟩, h.won.1,
    fun hwon => ?_, fun hmode => (h.steered hmode).heading, h.best, fun now => ?_⟩
  · obtain ⟨hfood, hnot⟩ := h.food hwon
    have hlt := Nat.lt_of_le_of_ne h.body.length_le fun hlength => hwon (h.won.2 hlength)
    refine ⟨hfood, hnot, by omega, fun freeIndex hindex => ?_⟩
    obtain ⟨cell, hcell, -⟩ := freeCell_spec game.cells freeIndex (List.range capacity)
      (by rw [length_free h.body.nodup h.body.on_board]; exact hindex)
    rw [hcell]
    rfl
  · obtain ⟨moved, game', hupdate, -, hmoves⟩ := snakeGameUpdate_spec h now
    exact ⟨moved, game', hupdate, hmoves⟩

end Snake
end TabOS
