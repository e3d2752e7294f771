import Mathlib.Data.List.Basic

/-!
# Snake

`apps/snake/src/game.c`. The body is the list of its cells, the head first, and the turns are those that are queued. What divides by the
number of free cells fails when there is none.
-/

namespace TabOS
namespace Snake

/-- `SNAKE_COLUMNS`. -/
def columns : Nat := 32

/-- `SNAKE_ROWS`. -/
def rows : Nat := 18

/-- `SNAKE_CAPACITY`. -/
def capacity : Nat := 576

/-- `snake_direction_t`. -/
inductive Direction where
  | up | right | down | left
  deriving DecidableEq, Repr

/-- `snake_mode_t`. -/
inductive Mode where
  | title | playing | paused | over | won
  deriving DecidableEq, Repr

/-- `snake_game_t`. -/
structure Game where
  cells : List Nat
  food : Nat
  random : UInt32
  best : Nat
  deadline : UInt64
  direction : Direction
  turns : List Direction
  mode : Mode
  deriving DecidableEq, Repr

def Direction.ofInt : Int → Option Direction
  | 0 => some .up
  | 1 => some .right
  | 2 => some .down
  | 3 => some .left
  | _ => none

/-- The direction whose number is two more, modulo four. -/
def Direction.opposite : Direction → Direction
  | .up => .down
  | .right => .left
  | .down => .up
  | .left => .right

def snakeGameScore (game : Game) : Nat := (game.cells.length - 4) * 10

def snakeGameInterval (game : Game) : Nat :=
  let levels := snakeGameScore game / 50
  if levels ≥ 10 then 60 else 160 - levels * 10

/-- The three steps of the random number. -/
def scramble (random : UInt32) : UInt32 :=
  let random := random ^^^ (random <<< 13)
  let random := random ^^^ (random >>> 17)
  random ^^^ (random <<< 5)

/-- The free cell of an index among some cells. -/
def freeCell (occupied : List Nat) : Nat → List Nat → Option Nat
  | _, [] => none
  | freeIndex, cell :: rest =>
    if cell ∈ occupied then freeCell occupied freeIndex rest
    else if freeIndex = 0 then some cell
    else freeCell occupied (freeIndex - 1) rest

def placeFood (game : Game) : Option Game :=
  let random := scramble game.random
  let free := capacity - game.cells.length
  if free = 0 then none
  else
    let food := (freeCell game.cells (random.toNat % free) (List.range capacity)).getD game.food
    some { game with random := random, food := food }

def snakeGameStart (now : UInt64) (game : Game) : Option Game :=
  let game := { game with
    cells := (List.range 4).map fun i => 9 * columns + 10 - i
    direction := .right
    turns := []
    mode := .playing }
  placeFood { game with deadline := now + UInt64.ofNat (snakeGameInterval game) }

def snakeGameInit (seed : UInt32) : Option Game :=
  let zero : Game := {
    cells := []
    food := 0
    random := 0
    best := 0
    deadline := 0
    direction := .up
    turns := []
    mode := .title }
  match snakeGameStart 0 { zero with random := if seed = 0 then 1 else seed } with
  | none => none
  | some game => some { game with mode := .title }

def snakeGameTurn (direction : Int) (game : Game) : Bool × Game :=
  match Direction.ofInt direction with
  | none => (false, game)
  | some direction =>
    if game.mode ≠ .playing ∨ game.turns.length = 2 then (false, game)
    else
      let previous := game.turns.getLast?.getD game.direction
      if direction = previous ∨ direction.opposite = previous then (false, game)
      else (true, { game with turns := game.turns ++ [direction] })

def snakeGamePause (now : UInt64) (game : Game) : Game :=
  match game.mode with
  | .playing => { game with mode := .paused, turns := [] }
  | .paused => { game with mode := .playing, deadline := now + UInt64.ofNat (snakeGameInterval game) }
  | _ => game

/-- The cell after one in a direction, if it is on the board. -/
def nextCell (direction : Direction) (cell : Nat) : Option Nat :=
  let x : Int := cell % columns
  let y : Int := cell / columns
  let (x, y) := match direction with
    | .up => (x, y - 1)
    | .right => (x + 1, y)
    | .down => (x, y + 1)
    | .left => (x - 1, y)
  if x < 0 ∨ x ≥ columns ∨ y < 0 ∨ y ≥ rows then none else some (y * columns + x).toNat

/-- The direction that is executed next. -/
def Game.heading (game : Game) : Direction := game.turns.head?.getD game.direction

/-- The growth of the body after the head has moved, the score, and what it ends. -/
def eat (game : Game) : Option Game :=
  let game := { game with best := if snakeGameScore game > game.best then snakeGameScore game else game.best }
  if game.cells.length = capacity then some { game with mode := .won } else placeFood game

def snakeGameUpdate (now : UInt64) (game : Game) : Option (Bool × Game) :=
  if game.mode ≠ .playing ∨ now < game.deadline then some (false, game)
  else
    let game := { game with direction := game.heading, turns := game.turns.tail }
    match nextCell game.direction (game.cells.headD 0) with
    | none => some (true, { game with mode := .over })
    | some next =>
      let growing := decide (next = game.food)
      let retained := if growing then game.cells else game.cells.dropLast
      if next ∈ retained then some (true, { game with mode := .over })
      else
        let game := { game with cells := next :: retained }
        match if growing then eat game else some game with
        | none => none
        | some game => some (true, { game with deadline := now + UInt64.ofNat (snakeGameInterval game) })

/-- The operations of the game. -/
inductive Operation where
  | start (now : UInt64)
  | turn (direction : Int)
  | pause (now : UInt64)
  | update (now : UInt64)

def step (operation : Operation) (game : Game) : Option Game :=
  match operation with
  | .start now => snakeGameStart now game
  | .turn direction => some (snakeGameTurn direction game).2
  | .pause now => some (snakeGamePause now game)
  | .update now => (snakeGameUpdate now game).map Prod.snd

/-- A game after some operations, in order. -/
def run (operations : List Operation) (game : Game) : Option Game := operations.foldlM (fun game operation => step operation game) game

end Snake
end TabOS
