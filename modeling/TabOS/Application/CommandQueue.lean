import TabOS.Library.Queue
import TabOS.Library.Run
import TabOS.Raster

/-!
# The graphics commands of an application

The queue of graphics commands in `loader/elf_application.c`, while a graphics session is open. A platform may accelerate a command; the
number of the call is an argument, so that it need not do so each time. The picture of a state is what the framebuffer becomes once the
queued commands are performed, and it is the same whenever they are.
-/

namespace TabOS
namespace CommandQueue

open Library

/-- `ELF_GRAPHICS_COMMAND_CAPACITY`. -/
def elfGraphicsCommandCapacity : Nat := 64

def eio : Int := 5
def einval : Int := 22

/-- `elf_graphics_command_t`. -/
inductive GraphicsCommand where
  | fill (x y : Int) (width height : Nat) (color : Pixel)
  | blit (options : GraphicsBlitOptions)

/-- What the platform draws by itself; `none` is a failure. -/
structure GraphicsPlatform where
  sizeMax : Nat
  fill : Nat → Framebuffer → Int → Int → Nat → Nat → Pixel → Option Framebuffer
  blit : Nat → Framebuffer → GraphicsBlitOptions → Option Framebuffer
  blitRetained : Nat → Framebuffer → GraphicsBlitOptions → Option Framebuffer

/-- The framebuffer, the queue of an application, and the number of calls of the platform so far. -/
structure GraphicsState where
  framebuffer : Framebuffer
  commands : Queue GraphicsCommand elfGraphicsCommandCapacity
  calls : Nat

/-! ## The queue -/

/-- The command at the head of the queue is drawn, and whether it was. -/
def drawOne (platform : GraphicsPlatform) (s : GraphicsState) (retainSources : Bool) : GraphicsCommand → Bool × Framebuffer
  | .fill x y width height color =>
    match platform.fill s.calls s.framebuffer x y width height color with
    | some framebuffer => (true, framebuffer)
    | none => (true, rasterFill s.framebuffer x y width height color)
  | .blit options =>
    match (if retainSources = true then platform.blitRetained else platform.blit) s.calls s.framebuffer options with
    | some framebuffer => (true, framebuffer)
    | none => rasterBlit s.framebuffer options

def elfGraphicsExecuteOne (platform : GraphicsPlatform) (s : GraphicsState) (retainSources : Bool) : Bool × GraphicsState :=
  if s.commands.count = 0 then (true, s)
  else
    let (result, framebuffer) := drawOne platform s retainSources s.commands.front
    (result, { framebuffer := framebuffer, commands := s.commands.popFront, calls := s.calls + 1 })

/-- The loop of `elf_graphics_drain`; its rounds are as many as there are commands. -/
def drainLoop (platform : GraphicsPlatform) (retainSources : Bool) : Nat → Bool → GraphicsState → Bool × GraphicsState
  | 0, result, s => (result, s)
  | rounds + 1, result, s =>
    let (executed, s) := elfGraphicsExecuteOne platform s retainSources
    drainLoop platform retainSources rounds (result && executed) s

def elfGraphicsDrain (platform : GraphicsPlatform) (s : GraphicsState) (retainSources : Bool) : Bool × GraphicsState :=
  drainLoop platform retainSources s.commands.count true s

def elfGraphicsEnqueue (platform : GraphicsPlatform) (s : GraphicsState) (command : GraphicsCommand) : Bool × GraphicsState :=
  let (result, s) :=
    if s.commands.count = elfGraphicsCommandCapacity then elfGraphicsExecuteOne platform s false else (true, s)
  if result = false then (false, s) else (true, { s with commands := s.commands.pushBack command })

/-! ## Submissions -/

/-- Whether a bitmap has pixels and its size in bytes is representable. -/
def bitmapFits (platform : GraphicsPlatform) (width height : Nat) : Bool :=
  decide (width ≠ 0) && decide (height ≠ 0) && decide (width ≤ platform.sizeMax / height) &&
    decide (width * height ≤ platform.sizeMax / 2)

/-- The command of `elf_graphics_clear`. -/
def elfGraphicsClear (s : GraphicsState) (color : Nat) : Option GraphicsCommand :=
  some (.fill 0 0 s.framebuffer.width s.framebuffer.height (UInt16.ofNat color))

/-- The command of `elf_graphics_fill_rect`. -/
def elfGraphicsFillRect (x y : Int) (width height color : Nat) : Option GraphicsCommand :=
  some (.fill x y width height (UInt16.ofNat color))

/-- The command of `elf_graphics_blit`; the pixels are what the memory of the application holds, if it is its memory. -/
def elfGraphicsBlit (platform : GraphicsPlatform) (x y : Int) (width height : Nat) (pixels : Option (Nat → Pixel)) :
    Option GraphicsCommand :=
  if bitmapFits platform width height = false ∨ pixels.isNone = true then none
  else
    some (.blit
      { pixels := pixels
        bitmapWidth := width
        bitmapHeight := height
        source := { x := 0, y := 0, width := width, height := height }
        destination := { x := x, y := y, width := width, height := height }
        rotation := 0
        mirrorX := false
        mirrorY := false
        opacity := 255
        colorKeyEnabled := false
        colorKeyLow := 0
        colorKeyHigh := 0 })

/-- The command of `elf_graphics_blit_ex`; `none` are options that are not in the memory of the application. -/
def elfGraphicsBlitEx (platform : GraphicsPlatform) (readable : Option GraphicsBlitOptions) : Option GraphicsCommand :=
  match readable with
  | none => none
  | some options =>
    if bitmapFits platform options.bitmapWidth options.bitmapHeight = false ∨ options.pixels.isNone = true then none
    else some (.blit options)

inductive GraphicsSubmission where
  | clear (color : Nat)
  | fillRect (x y : Int) (width height color : Nat)
  | blit (x y : Int) (width height : Nat) (pixels : Option (Nat → Pixel))
  | blitEx (readable : Option GraphicsBlitOptions)

/-- The command of a submission, unless its arguments are refused. -/
def commandOf (platform : GraphicsPlatform) (s : GraphicsState) : GraphicsSubmission → Option GraphicsCommand
  | .clear color => elfGraphicsClear s color
  | .fillRect x y width height color => elfGraphicsFillRect x y width height color
  | .blit x y width height pixels => elfGraphicsBlit platform x y width height pixels
  | .blitEx readable => elfGraphicsBlitEx platform readable

def submit (platform : GraphicsPlatform) (s : GraphicsState) (submission : GraphicsSubmission) : Int × GraphicsState :=
  match commandOf platform s submission with
  | none => (-einval, s)
  | some command =>
    let (result, s) := elfGraphicsEnqueue platform s command
    (if result = true then 0 else -eio, s)

/-- `elf_graphics_present`, `elf_graphics_submit` and `elf_graphics_submit_borrowed`; `displayed` is what the display answers. -/
def finish (platform : GraphicsPlatform) (s : GraphicsState) (retainSources displayed : Bool) : Int × GraphicsState :=
  let (result, s) := elfGraphicsDrain platform s retainSources
  (if result = true ∧ displayed = true then 0 else -eio, s)

inductive GraphicsOperation where
  | submit (submission : GraphicsSubmission)
  | finish (retainSources displayed : Bool)

def step (platform : GraphicsPlatform) (s : GraphicsState) : GraphicsOperation → GraphicsState
  | .submit submission => (submit platform s submission).2
  | .finish retainSources displayed => (finish platform s retainSources displayed).2

def run (platform : GraphicsPlatform) (s : GraphicsState) (operations : List GraphicsOperation) : GraphicsState :=
  operations.foldl (step platform) s

/-! ## The picture -/

/-- The blits that `raster_blit` accepts, and every fill. -/
def GraphicsCommand.Valid : GraphicsCommand → Prop
  | .fill _ _ _ _ _ => True
  | .blit options => ¬options.Invalid

instance : ∀ command : GraphicsCommand, Decidable command.Valid
  | .fill _ _ _ _ _ => isTrue trivial
  | .blit options => inferInstanceAs (Decidable ¬options.Invalid)

/-- What the portable functions draw. -/
def perform (framebuffer : Framebuffer) : GraphicsCommand → Framebuffer
  | .fill x y width height color => rasterFill framebuffer x y width height color
  | .blit options => (rasterBlit framebuffer options).2

/-- Where the platform reports success, it has drawn what the portable functions draw. -/
structure GraphicsPlatform.Faithful (platform : GraphicsPlatform) : Prop where
  fill : ∀ call framebuffer x y width height color drawn,
    platform.fill call framebuffer x y width height color = some drawn → drawn = rasterFill framebuffer x y width height color
  blit : ∀ call framebuffer options drawn, platform.blit call framebuffer options = some drawn →
    drawn = (rasterBlit framebuffer options).2
  blitRetained : ∀ call framebuffer options drawn,
    platform.blitRetained call framebuffer options = some drawn → drawn = (rasterBlit framebuffer options).2

/-- What the framebuffer becomes once the queued commands are performed. -/
def picture (s : GraphicsState) : Framebuffer := s.commands.contents.foldl perform s.framebuffer

/-- The valid command of an operation. -/
def validCommand (platform : GraphicsPlatform) (s : GraphicsState) : GraphicsOperation → Option GraphicsCommand
  | .submit submission => (commandOf platform s submission).filter fun command => decide command.Valid
  | .finish _ _ => none

/-- The valid commands of a run, in the order of their submission. -/
def validCommands (platform : GraphicsPlatform) : GraphicsState → List GraphicsOperation → List GraphicsCommand
  | _, [] => []
  | s, op :: operations => (validCommand platform s op).toList ++ validCommands platform (step platform s op) operations

variable {platform : GraphicsPlatform} {s : GraphicsState} {command : GraphicsCommand}

/-- A command that is not valid draws nothing. -/
theorem perform_of_not_valid (h : ¬command.Valid) (framebuffer : Framebuffer) : perform framebuffer command = framebuffer := by
  cases command with
  | fill x y width height color => exact absurd trivial h
  | blit options =>
    rw [perform, rasterBlit_of_invalid (Decidable.not_not.1 h)]

/-- However a command is drawn, it is performed. -/
theorem drawOne_snd (hplatform : platform.Faithful) (s : GraphicsState) (retainSources : Bool) (command : GraphicsCommand) :
    (drawOne platform s retainSources command).2 = perform s.framebuffer command := by
  cases command with
  | fill x y width height color =>
    rw [drawOne, perform]
    cases hfill : platform.fill s.calls s.framebuffer x y width height color with
    | none => rfl
    | some drawn => exact hplatform.fill _ _ _ _ _ _ _ _ hfill
  | blit options =>
    rw [drawOne, perform]
    cases retainSources with
    | true =>
      rw [if_pos rfl]
      cases hblit : platform.blitRetained s.calls s.framebuffer options with
      | none => rfl
      | some drawn => exact hplatform.blitRetained _ _ _ _ hblit
    | false =>
      rw [if_neg Bool.false_ne_true]
      cases hblit : platform.blit s.calls s.framebuffer options with
      | none => rfl
      | some drawn => exact hplatform.blit _ _ _ _ hblit

/-- A valid command is drawn. -/
theorem drawOne_fst (h : command.Valid) (platform : GraphicsPlatform) (s : GraphicsState) (retainSources : Bool) :
    (drawOne platform s retainSources command).1 = true := by
  cases command with
  | fill x y width height color =>
    rw [drawOne]
    split <;> rfl
  | blit options =>
    rw [drawOne]
    split
    · rfl
    · exact rasterBlit_of_valid h s.framebuffer

/-- Executing a command leaves the picture. -/
theorem picture_elfGraphicsExecuteOne (hplatform : platform.Faithful) (h : s.commands.Fits) (retainSources : Bool) :
    picture (elfGraphicsExecuteOne platform s retainSources).2 = picture s := by
  unfold elfGraphicsExecuteOne
  split
  · rfl
  · next hcount =>
    have hcontents := Queue.contents_eq_cons h (Nat.pos_of_ne_zero hcount)
    show s.commands.popFront.contents.foldl perform (drawOne platform s retainSources s.commands.front).2 = picture s
    rw [drawOne_snd hplatform, picture, hcontents, List.foldl_cons]

theorem fits_elfGraphicsExecuteOne (h : s.commands.Fits) (platform : GraphicsPlatform) (retainSources : Bool) :
    (elfGraphicsExecuteOne platform s retainSources).2.commands.Fits := by
  unfold elfGraphicsExecuteOne
  split
  · exact h
  · exact h.popFront

theorem count_elfGraphicsExecuteOne (platform : GraphicsPlatform) (s : GraphicsState) (retainSources : Bool) :
    (elfGraphicsExecuteOne platform s retainSources).2.commands.count = s.commands.count - 1 := by
  unfold elfGraphicsExecuteOne
  split
  · next hcount => rw [hcount]
  · rfl

/-- A drain leaves the picture in the framebuffer, and no commands. -/
theorem drainLoop_spec (hplatform : platform.Faithful) (h : s.commands.Fits) (retainSources result : Bool) :
    picture (drainLoop platform retainSources s.commands.count result s).2 = picture s ∧
      (drainLoop platform retainSources s.commands.count result s).2.commands.Fits ∧
        (drainLoop platform retainSources s.commands.count result s).2.commands.count = 0 := by
  generalize hrounds : s.commands.count = rounds
  induction rounds generalizing s result with
  | zero => exact ⟨rfl, h, hrounds⟩
  | succ rounds ih =>
    have hcount : (elfGraphicsExecuteOne platform s retainSources).2.commands.count = rounds := by
      rw [count_elfGraphicsExecuteOne, hrounds, Nat.succ_sub_one]
    obtain ⟨hpicture, hfits, hempty⟩ := ih (fits_elfGraphicsExecuteOne h platform retainSources)
      (result && (elfGraphicsExecuteOne platform s retainSources).1) hcount
    exact ⟨hpicture.trans (picture_elfGraphicsExecuteOne hplatform h retainSources), hfits, hempty⟩

theorem framebuffer_elfGraphicsDrain (hplatform : platform.Faithful) (h : s.commands.Fits) (retainSources : Bool) :
    (elfGraphicsDrain platform s retainSources).2.framebuffer = picture s := by
  obtain ⟨hpicture, -, hcount⟩ := drainLoop_spec hplatform h retainSources true
  rw [← hpicture, picture, Queue.contents]
  show (elfGraphicsDrain platform s retainSources).2.framebuffer = _
  rw [elfGraphicsDrain, hcount]
  rfl

/-! ## Submissions that find room -/

/-- No valid command meets a full queue whose oldest command is not valid. -/
def Roomy (platform : GraphicsPlatform) (s : GraphicsState) (op : GraphicsOperation) : Prop :=
  (validCommand platform s op).isSome = true → s.commands.count = elfGraphicsCommandCapacity → s.commands.front.Valid

instance (platform : GraphicsPlatform) (s : GraphicsState) (op : GraphicsOperation) : Decidable (Roomy platform s op) :=
  decidable_of_iff ((validCommand platform s op).isSome = true → s.commands.count = elfGraphicsCommandCapacity → s.commands.front.Valid)
    Iff.rfl

/-- A submission is queued behind the others, or the command that was executed to make room failed. -/
theorem elfGraphicsEnqueue_spec (hplatform : platform.Faithful) (h : s.commands.Fits) (command : GraphicsCommand) :
    (elfGraphicsEnqueue platform s command).2.commands.Fits ∧
      (((elfGraphicsEnqueue platform s command).1 = true ∧
          picture (elfGraphicsEnqueue platform s command).2 = perform (picture s) command) ∨
        (s.commands.count = elfGraphicsCommandCapacity ∧ ¬s.commands.front.Valid ∧ (elfGraphicsEnqueue platform s command).1 = false ∧
          picture (elfGraphicsEnqueue platform s command).2 = picture s)) := by
  have hpush : ∀ t : GraphicsState, t.commands.Fits → t.commands.count < elfGraphicsCommandCapacity → picture t = picture s →
      ({ t with commands := t.commands.pushBack command } : GraphicsState).commands.Fits ∧
        picture { t with commands := t.commands.pushBack command } = perform (picture s) command := by
    intro t hfits hlt hpicture
    refine ⟨hfits.pushBack hlt command, ?_⟩
    rw [← hpicture, picture, Queue.contents_pushBack hlt, List.foldl_append]
    rfl
  unfold elfGraphicsEnqueue
  by_cases hfull : s.commands.count = elfGraphicsCommandCapacity
  · rw [if_pos hfull]
    have hne : s.commands.count ≠ 0 := by
      rw [hfull]
      decide
    have hfits := fits_elfGraphicsExecuteOne h platform false
    have hpicture := picture_elfGraphicsExecuteOne (s := s) hplatform h false
    have hcount := count_elfGraphicsExecuteOne platform s false
    have hresult : (elfGraphicsExecuteOne platform s false).1 = (drawOne platform s false s.commands.front).1 := by
      rw [elfGraphicsExecuteOne, if_neg hne]
    dsimp only
    by_cases hdrawn : (elfGraphicsExecuteOne platform s false).1 = false
    · rw [if_pos hdrawn]
      refine ⟨hfits, Or.inr ⟨hfull, fun hvalid => ?_, rfl, hpicture⟩⟩
      rw [hresult, drawOne_fst hvalid] at hdrawn
      cases hdrawn
    · rw [if_neg hdrawn]
      have hlt : (elfGraphicsExecuteOne platform s false).2.commands.count < elfGraphicsCommandCapacity := by
        rw [hcount, hfull]
        decide
      obtain ⟨hfits', hpicture'⟩ := hpush _ hfits hlt hpicture
      exact ⟨hfits', Or.inl ⟨rfl, hpicture'⟩⟩
  · rw [if_neg hfull]
    dsimp only
    rw [if_neg (by decide)]
    obtain ⟨hfits', hpicture'⟩ := hpush s h (Nat.lt_of_le_of_ne h.count_le hfull) rfl
    exact ⟨hfits', Or.inl ⟨rfl, hpicture'⟩⟩

/-- A step performs the valid command that it submits, and nothing else, on the picture. -/
theorem picture_step (hplatform : platform.Faithful) (h : s.commands.Fits) {op : GraphicsOperation} (hroomy : Roomy platform s op) :
    (step platform s op).commands.Fits ∧
      picture (step platform s op) = (validCommand platform s op).toList.foldl perform (picture s) := by
  cases op with
  | submit submission =>
    have hcommands : validCommand platform s (.submit submission) =
        (commandOf platform s submission).filter fun command => decide command.Valid := rfl
    have hstep : step platform s (.submit submission) = (submit platform s submission).2 := rfl
    rw [Roomy, hcommands] at hroomy
    rw [hstep, hcommands, submit]
    cases hcommand : commandOf platform s submission with
    | none => exact ⟨h, rfl⟩
    | some command =>
      rw [hcommand] at hroomy
      obtain ⟨hfits, hqueued | ⟨hfull, hfront, -, hpicture⟩⟩ := elfGraphicsEnqueue_spec hplatform h command
      · refine ⟨hfits, hqueued.2.trans ?_⟩
        by_cases hvalid : command.Valid
        · simp only [Option.filter_some, decide_eq_true hvalid, if_true, Option.toList_some, List.foldl_cons, List.foldl_nil]
        · rw [perform_of_not_valid hvalid]
          simp only [Option.filter_some, decide_eq_false hvalid, Bool.false_eq_true, if_false, Option.toList_none, List.foldl_nil]
      · refine ⟨hfits, hpicture.trans ?_⟩
        by_cases hvalid : command.Valid
        · exact absurd (hroomy (by simp [Option.filter_some, hvalid]) hfull) hfront
        · simp only [Option.filter_some, decide_eq_false hvalid, Bool.false_eq_true, if_false, Option.toList_none, List.foldl_nil]
  | finish retainSources displayed =>
    obtain ⟨hpicture, hfits, -⟩ := drainLoop_spec hplatform h retainSources true
    exact ⟨hfits, hpicture⟩

theorem picture_run (hplatform : platform.Faithful) (h : s.commands.Fits) {operations : List GraphicsOperation}
    (hroomy : Along (step platform) (Roomy platform) s operations) :
    (run platform s operations).commands.Fits ∧
      picture (run platform s operations) = (validCommands platform s operations).foldl perform (picture s) := by
  induction operations generalizing s with
  | nil => exact ⟨h, rfl⟩
  | cons op operations ih =>
    obtain ⟨hop, hrest⟩ := hroomy
    obtain ⟨hfits, hpicture⟩ := picture_step hplatform h hop
    obtain ⟨hfits', hpicture'⟩ := ih hfits hrest
    refine ⟨hfits', hpicture'.trans ?_⟩
    rw [hpicture, validCommands, List.foldl_append]

/-- Unless a valid command is submitted to a full queue whose oldest command is not valid: every submission of a valid command succeeds,
and a drain leaves the framebuffer as if every valid command had been performed when it was submitted. -/
theorem commands_performed_in_order (platform : GraphicsPlatform) (hplatform : platform.Faithful) (s : GraphicsState)
    (hfits : s.commands.Fits) (hempty : s.commands.count = 0) (operations : List GraphicsOperation)
    (hroomy : Along (step platform) (Roomy platform) s operations) :
    (∀ earlier submission later, operations = earlier ++ .submit submission :: later →
        (validCommand platform (run platform s earlier) (.submit submission)).isSome = true →
          (submit platform (run platform s earlier) submission).1 = 0) ∧
      ∀ retainSources, (elfGraphicsDrain platform (run platform s operations) retainSources).2.framebuffer =
        (validCommands platform s operations).foldl perform s.framebuffer := by
  constructor
  · rintro earlier submission later rfl hvalid
    obtain ⟨hearlier, hroomy, -⟩ := (along_append s earlier _).1 hroomy
    have hfits' := (picture_run hplatform hfits hearlier).1
    have hfront := hroomy hvalid
    unfold submit
    cases hcommand : commandOf platform (run platform s earlier) submission with
    | none =>
      rw [validCommand, hcommand] at hvalid
      cases hvalid
    | some command =>
      obtain ⟨-, hqueued | ⟨hfull, hinvalid, -⟩⟩ := elfGraphicsEnqueue_spec hplatform hfits' command
      · exact if_pos hqueued.1
      · exact absurd (hfront hfull) hinvalid
  · intro retainSources
    obtain ⟨hfits', hpicture⟩ := picture_run hplatform hfits hroomy
    have hcontents : s.commands.contents = [] := List.eq_nil_of_length_eq_zero (by rw [Queue.length_contents, hempty])
    rw [framebuffer_elfGraphicsDrain hplatform hfits', hpicture, picture, hcontents]
    rfl

/-- A platform that accelerates nothing. -/
def unaccelerated : GraphicsPlatform where
  sizeMax := 0xffffffff
  fill := fun _ _ _ _ _ _ _ => none
  blit := fun _ _ _ => none
  blitRetained := fun _ _ _ => none

theorem unaccelerated_faithful : unaccelerated.Faithful where
  fill := fun _ _ _ _ _ _ _ _ h => by cases h
  blit := fun _ _ _ _ h => by cases h
  blitRetained := fun _ _ _ _ h => by cases h

/-- A session that was just opened. -/
def openedSession : GraphicsState where
  framebuffer := .black 2 2
  commands := { slots := fun _ => .fill 0 0 0 0 0, head := 0, count := 0 }
  calls := 0

/-- A blit whose source lies outside its bitmap. -/
def outsideBlit : GraphicsBlitOptions where
  pixels := some fun _ => 7
  bitmapWidth := 1
  bitmapHeight := 1
  source := { x := 1, y := 0, width := 1, height := 1 }
  destination := { x := 0, y := 0, width := 1, height := 1 }
  rotation := 0
  mirrorX := false
  mirrorY := false
  opacity := 255
  colorKeyEnabled := false
  colorKeyLow := 0
  colorKeyHigh := 0

/-- A clear, an invalid blit and a rectangle. -/
def threeSubmissions : List GraphicsOperation :=
  [.submit (.clear 5), .submit (.blitEx (some outsideBlit)), .submit (.fillRect 0 0 1 1 9)]

theorem commands_performed_three :
    (elfGraphicsDrain unaccelerated (run unaccelerated openedSession threeSubmissions) false).2.framebuffer =
      (validCommands unaccelerated openedSession threeSubmissions).foldl perform (.black 2 2) :=
  (commands_performed_in_order unaccelerated unaccelerated_faithful openedSession ⟨by decide, by decide⟩ rfl threeSubmissions
    (by decide +kernel)).2 false

/-- A queue that is full, with an invalid blit in front. -/
def fullOfClears : List GraphicsOperation :=
  .submit (.blitEx (some outsideBlit)) :: List.replicate 63 (.submit (.clear 5))

/-- The clear that is submitted next fails, and is not performed. -/
theorem clear_fails_behind_blit :
    (validCommand unaccelerated (run unaccelerated openedSession fullOfClears) (.submit (.clear 9))).isSome = true ∧
      (submit unaccelerated (run unaccelerated openedSession fullOfClears) (.clear 9)).1 = -eio ∧
        (elfGraphicsDrain unaccelerated (submit unaccelerated (run unaccelerated openedSession fullOfClears) (.clear 9)).2
          false).2.framebuffer.pixels
          0 = 5 := by
  decide +kernel

end CommandQueue
end TabOS
