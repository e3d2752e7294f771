import TabOS.Console.Session
import TabOS.Input.Gaps

/-!
# Who gets the input

At most one session owns the console, since it acquired it. An acquisition empties the queue, so all that its owner polls was put into the
queue while it was the owner.
-/

namespace TabOS
namespace Input

variable {generation : UInt32} {s t : InputState}

/-! ## The queue -/

/-- The polled events are among those before the next one, in their order. -/
def Drained (s : InputState) : Prop := List.Sublist s.history.polled (s.events.take s.position)

theorem Drained.mono (h : Drained s) (hpolled : t.history.polled = s.history.polled) (hevents : s.events <+: t.events)
    (hposition : s.position ≤ t.position) : Drained t := by
  unfold Drained at h ⊢
  rw [hpolled]
  exact h.trans ((hevents.take s.position).trans (List.take_prefix_take_left hposition)).sublist

theorem events_append (s : InputState) (event : InputEvent) : s.events <+: (append s event).events := by
  simp [InputState.events, append]

theorem events_makeRoom (s : InputState) : (makeRoom s).events = s.events := by
  unfold makeRoom
  split <;> rfl

/-- Putting an event into the queue passes over at most the oldest one. -/
theorem position_enqueue (h : Accounted generation s) (event : InputEvent) : s.position ≤ (enqueue s event).position := by
  have hle := h.holds.count_le_length
  have hcapacity := h.holds.count_le
  simp only [InputState.events, List.length_map] at hle
  unfold enqueue makeRoom
  split <;> simp only [InputState.position, append, changeGeneration, Library.Queue.popFront, Library.Queue.pushBack,
    List.length_append, List.length_cons, List.length_nil] <;> omega

theorem Drained.move (h : Drained s) (hs : Accounted generation s) (hmove : Move s t) : Drained t := by
  cases hmove with
  | same hsame =>
    obtain ⟨hqueue, -, hhistory⟩ := hsame
    refine h.mono (by rw [hhistory]) ?_ ?_
    · simp [InputState.events, hhistory]
    · simp [InputState.position, hqueue, hhistory]
  | enqueue event =>
    refine h.mono ?_ ?_ (position_enqueue hs event)
    · unfold enqueue makeRoom
      split <;> rfl
    · have happend := events_append (makeRoom s) event
      rwa [events_makeRoom] at happend
  | discard => exact h.mono rfl (List.prefix_refl _) (Nat.sub_le_sub_left (Nat.zero_le _) _)
  | poll hcount =>
    have hfront := hs.holds.getElem?_front hcount
    have hle := hs.holds.count_le_length
    have hnext : (tabosInputPoll s).position = s.position + 1 := by
      simp only [InputState.events, List.length_map] at hle
      simp only [tabosInputPoll, if_neg (Nat.ne_of_gt hcount), InputState.position, Library.Queue.popFront]
      omega
    have hevents : (tabosInputPoll s).events = s.events := by
      simp only [tabosInputPoll, if_neg (Nat.ne_of_gt hcount), InputState.events]
    have hpolled : (tabosInputPoll s).history.polled = s.history.polled ++ [s.queue.front] := by
      simp only [tabosInputPoll, if_neg (Nat.ne_of_gt hcount)]
    have hlength : s.events.length - s.queue.count = s.position := by simp [InputState.events, InputState.position]
    unfold Drained
    rw [hpolled, hnext, hevents, List.take_add_one, ← hlength, hfront, hlength]
    exact h.append (List.Sublist.refl _)

theorem position_move (hs : Accounted generation s) (hmove : Move s t) : s.position ≤ t.position := by
  cases hmove with
  | same hsame => simp [InputState.position, hsame.queue, hsame.history]
  | enqueue event => exact position_enqueue hs event
  | discard => exact Nat.sub_le_sub_left (Nat.zero_le _) _
  | poll hcount =>
    simp only [tabosInputPoll, if_neg (Nat.ne_of_gt hcount), InputState.position, Library.Queue.popFront]
    omega

theorem polled_enqueue (s : InputState) (event : InputEvent) : (enqueue s event).history.polled = s.history.polled := by
  unfold enqueue makeRoom
  split <;> rfl

theorem polled_submit (s : InputState) (event : InputEvent) (now : Nat) : (inputSubmit s event now).history.polled = s.history.polled := by
  unfold inputSubmit
  split
  · rfl
  · rw [polled_enqueue, (sameQueue_trackHeld _ event now).history, (sameQueue_trackPower s event).history]

theorem polled_update (s : InputState) (now : Nat) : (inputUpdate s now).history.polled = s.history.polled := by
  unfold inputUpdate repeatText
  split
  · rfl
  · dsimp only
    split
    · rw [polled_enqueue, polled_enqueue]
    · rw [polled_enqueue]

theorem history_reset (s : InputState) (clearPressed : Bool) : (inputReset s clearPressed).history = (discard s).history := by
  cases clearPressed <;> rfl

/-- The account of a queue and of what was polled. -/
structure Kept (generation : UInt32) (s : InputState) : Prop extends Accounted generation s where
  drained : Drained s

theorem Kept.step (h : Kept generation s) (operation : Operation) :
    Kept generation (step s operation) ∧ s.position ≤ (Input.step s operation).position := by
  have hmoves := moves_step s operation
  generalize Input.step s operation = t at hmoves
  induction hmoves with
  | refl => exact ⟨h, le_refl _⟩
  | tail _ hmove ih => exact ⟨⟨ih.1.toAccounted.move hmove, ih.1.drained.move ih.1.toAccounted hmove⟩,
      ih.2.trans (position_move ih.1.toAccounted hmove)⟩

end Input

namespace Console

open Library

variable {ι : Type}

/-! ## What is drawn -/

/-- The consoles differ in the picture, the cursor and the pause for graphics alone, and there is a terminal in both or in neither. -/
structure Repainted (c d : System ι) : Prop where
  eq : d = { c with
    activeTerminal := d.activeTerminal
    cursorTimer := d.cursorTimer
    cursorPhaseVisible := d.cursorPhaseVisible
    graphicsActive := d.graphicsActive
    attempts := d.attempts }
  terminal : d.activeTerminal.isSome = c.activeTerminal.isSome

theorem Repainted.refl (c : System ι) : Repainted c c := ⟨rfl, rfl⟩

theorem Repainted.trans {c d e : System ι} (h : Repainted c d) (h' : Repainted d e) : Repainted c e := by
  refine ⟨?_, h'.terminal.trans h.terminal⟩
  rw [h'.eq, h.eq]

theorem repainted_onTerminal (c : System ι) (change : Terminal → Terminal) : Repainted c (c.onTerminal change) :=
  ⟨rfl, by simp [System.onTerminal]⟩

variable (presents : Nat → Bool)

theorem repainted_presentConsole (c : System ι) : Repainted c (presentConsole presents c).2 := by
  unfold presentConsole
  split <;> exact ⟨rfl, rfl⟩

theorem repainted_restartCursorBlink (c : System ι) (now : Nat) : Repainted c (restartCursorBlink c now) := by
  unfold restartCursorBlink
  dsimp only
  split
  · exact ⟨rfl, rfl⟩
  · exact ⟨rfl, by simp [System.onTerminal]⟩

theorem repainted_consoleResize (c : System ι) (heap : Heap) (framebuffer : Framebuffer) (scale now : Nat) :
    Repainted c (consoleResize presents c heap framebuffer scale now).2 := by
  unfold consoleResize
  split
  · exact .refl c
  · split
    · exact .refl c
    · rename_i resized hresized
      have hterminal : Repainted c { c with activeTerminal := some resized } := by
        refine ⟨rfl, ?_⟩
        cases hactive : c.activeTerminal with
        | none => simp [hactive] at hresized
        | some t => rfl
      dsimp only
      split
      · exact hterminal.trans ((repainted_restartCursorBlink _ now).trans (repainted_presentConsole presents _))
      · exact hterminal.trans (repainted_presentConsole presents _)

theorem repainted_consoleUpdate (c : System ι) (now : Nat) : Repainted c (consoleUpdate presents c now) := by
  unfold consoleUpdate
  dsimp only
  split_ifs
  · have hphase : Repainted c { c with cursorTimer := c.cursorTimer.poll now, cursorPhaseVisible := !c.cursorPhaseVisible } := ⟨rfl, rfl⟩
    exact hphase.trans ((repainted_onTerminal _ _).trans (repainted_presentConsole presents _))
  · exact ⟨rfl, rfl⟩
  · exact .refl c

theorem repainted_consoleSetGraphicsActive (c : System ι) (active : Bool) (now : Nat) :
    Repainted c (consoleSetGraphicsActive presents c active now) := by
  have hactive : Repainted c { c with graphicsActive := active } := ⟨rfl, rfl⟩
  unfold consoleSetGraphicsActive
  dsimp only
  split_ifs
  · exact .refl c
  · exact ⟨rfl, by simp [System.onTerminal]⟩
  · exact hactive.trans ((repainted_onTerminal _ _).trans ((repainted_onTerminal _ _).trans
      ((repainted_restartCursorBlink _ now).trans ((repainted_onTerminal _ _).trans (repainted_presentConsole presents _)))))
  · exact hactive.trans ((repainted_onTerminal _ _).trans ((repainted_onTerminal _ _).trans (repainted_presentConsole presents _)))

theorem repainted_updateViewport (c : System ι) (i : ι) (scroll : Scroll) : Repainted c (updateViewport presents c i scroll).2 := by
  unfold updateViewport
  split
  · exact (repainted_onTerminal c _).trans (repainted_presentConsole presents _)
  · exact .refl c

theorem Repainted.captureBytes {c d : System ι} (h : Repainted c d) (data : List UInt8) :
    Repainted (captureBytes c data) (captureBytes d data) := by
  rw [h.eq]
  have hterminal := h.terminal
  unfold Console.captureBytes
  dsimp only
  split <;> exact ⟨rfl, hterminal⟩

/-- What a session writes goes to the capture and to the terminal. -/
theorem repainted_serve {c : System ι} {i : ι} (hserves : c.Serves i) (now : Nat) (captured : List (List UInt8))
    (change : Terminal → Terminal) : Repainted (captured.foldl captureBytes c) (serve presents c i now captured change).2 := by
  unfold serve
  rw [if_pos hserves]
  exact (repainted_onTerminal _ _).trans ((repainted_restartCursorBlink _ now).trans (repainted_presentConsole presents _))

theorem repainted_consoleWritePanic {c : System ι} (haccepted : ¬(c.mutex = false ∨ c.activeTerminal.isSome = false)) (text : List UInt8) :
    Repainted (captureBytes (captureBytes c text) [10]) (consoleWritePanic presents c text).2 := by
  unfold consoleWritePanic
  rw [if_neg haccepted]
  have hactive : Repainted c { c with graphicsActive := false } := ⟨rfl, rfl⟩
  have hcleared := (hactive.trans (repainted_onTerminal _ fun t =>
    (resetTerminal ((t.setRenderingEnabled true).setCursorVisible false)).clear)).captureBytes text
  exact (hcleared.captureBytes [10]).trans ((repainted_onTerminal _ _).trans (repainted_presentConsole presents _))

/-! ## What a step does to the focus -/

/-- The part of the console that says who gets the input. -/
structure Focus (ι : Type) where
  mutex : Bool
  terminal : Bool
  foregroundToken : Nat
  token : ι → Nat
  input : Input.InputState
  delivered : List (ι × Input.InputEvent)

def System.focus (c : System ι) : Focus ι where
  mutex := c.mutex
  terminal := c.activeTerminal.isSome
  foregroundToken := c.foregroundToken
  token := c.token
  input := c.input
  delivered := c.history.delivered

theorem Repainted.focus {c d : System ι} (h : Repainted c d) : d.focus = c.focus := by
  have hterminal := h.terminal
  rw [h.eq]
  simp [System.focus, hterminal]

@[simp] theorem focus_captureBytes (c : System ι) (data : List UInt8) : (captureBytes c data).focus = c.focus := by
  unfold captureBytes
  split <;> rfl

@[simp] theorem focus_consoleCaptureStop (c : System ι) : (consoleCaptureStop c).focus = c.focus := by
  unfold consoleCaptureStop
  split <;> rfl

theorem focus_consoleCaptureStart (c : System ι) (allocates : Bool) : (consoleCaptureStart c allocates).2.focus = c.focus := by
  unfold consoleCaptureStart
  split <;> rfl

theorem focus_consoleCaptureRead (c : System ι) (capacity : Nat) : (consoleCaptureRead c capacity).2.focus = c.focus := by
  unfold consoleCaptureRead
  split
  · rfl
  · split <;> rfl

theorem focus_serve (c : System ι) (i : ι) (now : Nat) (captured : List (List UInt8)) (change : Terminal → Terminal) :
    (serve presents c i now captured change).2.focus = c.focus := by
  by_cases hserves : c.Serves i
  · rw [(repainted_serve presents hserves now captured change).focus]
    exact foldl_invariant (fun d => d.focus = c.focus) (fun d data hd => (focus_captureBytes d data).trans hd) captured rfl
  · unfold serve
    rw [if_neg hserves]

theorem focus_consoleWritePanic (c : System ι) (text : List UInt8) : (consoleWritePanic presents c text).2.focus = c.focus := by
  by_cases hrefused : c.mutex = false ∨ c.activeTerminal.isSome = false
  · unfold consoleWritePanic
    rw [if_pos hrefused]
  · rw [(repainted_consoleWritePanic presents hrefused text).focus, focus_captureBytes, focus_captureBytes]

def Focus.Owns (f : Focus ι) (i : ι) : Prop := f.token i ≠ 0 ∧ f.token i = f.foregroundToken

variable [DecidableEq ι]

/-- What an event makes of the focus. -/
inductive Turn (f : Focus ι) : Event ι → Focus ι → Prop
  | keeps {event : Event ι} (hacquire : ∀ i now, event ≠ .acquire i now) : Turn f event f
  | opened (terminal : Terminal) (created : Bool) (hclosed : f.mutex = false) :
      Turn f (.init terminal created) { f with mutex := true, terminal := true, foregroundToken := 0 }
  | rebound (terminal : Terminal) (now : Nat) (hopen : f.mutex = true) : Turn f (.rebind terminal now) { f with terminal := true }
  | closed : Turn f .shutdown { f with mutex := false, terminal := false, foregroundToken := 0 }
  | refused (i : ι) (now : Nat) : Turn f (.acquire i now) { f with token := Function.update f.token i 0 }
  | unpresented (i : ι) (now : Nat) (hfree : f.foregroundToken = 0) :
      Turn f (.acquire i now) { f with token := Function.update f.token i 0, input := Input.inputReset f.input false }
  | acquired (i : ι) (now : Nat) {token : Nat} (hterminal : f.terminal = true) (hfree : f.foregroundToken = 0) (htoken : token ≠ 0) :
      Turn f (.acquire i now)
        { f with foregroundToken := token, token := Function.update f.token i token, input := Input.inputReset f.input false }
  | dropped (i : ι) (howns : ¬f.Owns i) : Turn f (.release i) { f with token := Function.update f.token i 0 }
  | released (i : ι) (howns : f.Owns i) :
      Turn f (.release i)
        { f with foregroundToken := 0, token := Function.update f.token i 0, input := Input.inputReset f.input false }
  | polled (i : ι) (now : Nat) {event : Input.InputEvent} (howns : f.Owns i) (hpolled : Input.polledEvent f.input = some event) :
      Turn f (.poll i now) { f with input := Input.tabosInputPoll f.input, delivered := f.delivered ++ [(i, event)] }
  | keyboard (keyboard : Keyboard) : Turn f (.keyboard keyboard) { f with input := Input.step f.input keyboard.operation }

theorem turn_rebind (c : System ι) (terminal : Terminal) (now : Nat) :
    Turn c.focus (.rebind terminal now) (consoleRebind c terminal now).focus := by
  unfold consoleRebind
  dsimp only
  split_ifs with hclosed
  · exact .keeps (by simp)
  · rw [(repainted_restartCursorBlink _ now).focus]
    exact .rebound terminal now (by simpa [System.focus] using hclosed)
  · exact .rebound terminal now (by simpa [System.focus] using hclosed)

theorem turn_acquire (c : System ι) (i : ι) (now : Nat) :
    Turn c.focus (.acquire i now) (tabosConsoleAcquire presents c i now).2.focus := by
  unfold tabosConsoleAcquire
  split
  · exact .refused i now
  · rename_i hfree
    simp only [not_or, Bool.not_eq_false, ne_eq, not_not] at hfree
    obtain ⟨hterminal, hfree⟩ := hfree
    have htoken : (if c.nextToken = 0 then 1 else c.nextToken) ≠ 0 := by
      split
      · simp
      · assumption
    dsimp only
    generalize (if c.nextToken = 0 then 1 else c.nextToken) = token at htoken
    have hacquired := Turn.acquired (f := c.focus) i now hterminal hfree htoken
    have hunpresented := Turn.unpresented (f := c.focus) i now hfree
    generalize hd : restartCursorBlink _ now = d
    have hfocus : (presentConsole presents d).2.focus = { c.focus with
        foregroundToken := token
        token := Function.update c.focus.token i token
        input := Input.inputReset c.focus.input false } := by
      rw [(repainted_presentConsole presents d).focus, ← hd, (repainted_restartCursorBlink _ now).focus,
        (repainted_onTerminal _ _).focus]
      rfl
    split
    · rw [hfocus]
      exact hacquired
    · have hzero : ({ c.focus with
          foregroundToken := 0
          token := Function.update (Function.update c.focus.token i token) i 0
          input := Input.inputReset c.focus.input false } : Focus ι) = { c.focus with
          token := Function.update c.focus.token i 0
          input := Input.inputReset c.focus.input false } := by
        rw [Function.update_idem]
        simp [System.focus, hfree]
      have hlast : ∀ p : System ι, ({ p.onTerminal fun t => t.setCursorVisible false with
          foregroundToken := 0
          token := Function.update p.token i 0
          cursorTimer := .cancelled } : System ι).focus = { p.focus with
          foregroundToken := 0
          token := Function.update p.focus.token i 0 } := fun p => by simp [System.focus, System.onTerminal]
      rw [hlast, hfocus, hzero]
      exact hunpresented

theorem turn_release (c : System ι) (i : ι) : Turn c.focus (.release i) (tabosConsoleRelease presents c i).focus := by
  unfold tabosConsoleRelease
  by_cases howns : c.Owns i
  · have hreleased := Turn.released (f := c.focus) i howns
    simp only [if_pos howns]
    generalize hd : presentConsole presents _ = d
    have hfocus : d.2.focus = c.focus := by
      rw [← hd, (repainted_presentConsole presents _).focus]
      simp [System.focus, System.onTerminal]
    have hlast : ({ d.2 with
        input := Input.inputReset d.2.input false
        foregroundToken := 0
        token := Function.update d.2.token i 0 } : System ι).focus = { d.2.focus with
        foregroundToken := 0
        token := Function.update d.2.focus.token i 0
        input := Input.inputReset d.2.focus.input false } := rfl
    rw [hlast, hfocus]
    exact hreleased
  · rw [if_neg howns]
    exact .dropped i howns

theorem turn_poll (c : System ι) (i : ι) (now : Nat) : Turn c.focus (.poll i now) (tabosConsolePoll c i now).focus := by
  unfold tabosConsolePoll
  cases hpolled : consolePolled c i with
  | none => exact .keeps (by simp)
  | some event =>
    unfold consolePolled at hpolled
    split at hpolled
    · rename_i hserves
      rw [(repainted_restartCursorBlink _ now).focus]
      exact .polled i now hserves.1 hpolled
    · simp at hpolled

theorem turn_shutdown (c : System ι) : Turn c.focus .shutdown (consoleShutdown c).focus := by
  unfold consoleShutdown
  dsimp only
  split
  · rw [focus_consoleCaptureStop]
    exact .keeps (by simp)
  · have hlast : ∀ d : System ι, ({ d with
        activeTerminal := none
        foregroundToken := 0
        cursorTimer := .cancelled
        mutex := false } : System ι).focus = { d.focus with mutex := false, terminal := false, foregroundToken := 0 } := fun d => rfl
    rw [hlast, focus_consoleCaptureStop]
    exact .closed

theorem turn_step (c : System ι) (event : Event ι) : Turn c.focus event (step presents c event).focus := by
  have hkeeps : ∀ {d : System ι}, d.focus = c.focus → (∀ i now, event ≠ .acquire i now) → Turn c.focus event d.focus := by
    intro d hd hacquire
    rw [hd]
    exact .keeps hacquire
  cases event with
  | init terminal created =>
    show Turn c.focus _ (consoleInit c terminal created).2.focus
    unfold consoleInit
    split
    · exact .keeps (by simp)
    · rename_i h
      exact .opened terminal created (by simpa [System.focus] using (not_or.1 h).1)
  | rebind terminal now => exact turn_rebind c terminal now
  | resize heap framebuffer scale now => exact hkeeps (repainted_consoleResize presents c heap framebuffer scale now).focus (by simp)
  | writePanic text => exact hkeeps (focus_consoleWritePanic presents c text) (by simp)
  | shutdown => exact turn_shutdown c
  | update now => exact hkeeps (repainted_consoleUpdate presents c now).focus (by simp)
  | setGraphicsActive active now => exact hkeeps (repainted_consoleSetGraphicsActive presents c active now).focus (by simp)
  | captureStart allocates => exact hkeeps (focus_consoleCaptureStart c allocates) (by simp)
  | captureRead capacity => exact hkeeps (focus_consoleCaptureRead c capacity) (by simp)
  | captureStop => exact hkeeps (focus_consoleCaptureStop c) (by simp)
  | acquire i now => exact turn_acquire presents c i now
  | release i => exact turn_release presents c i
  | writeBytes i data now => exact hkeeps (focus_serve presents c i now _ _) (by simp)
  | writeLine i text now => exact hkeeps (focus_serve presents c i now _ _) (by simp)
  | clear i now => exact hkeeps (focus_serve presents c i now _ _) (by simp)
  | scroll i scroll => exact hkeeps (repainted_updateViewport presents c i scroll).focus (by simp)
  | poll i now => exact turn_poll c i now
  | keyboard keyboard => exact .keyboard keyboard

/-! ## One owner -/

/-- Only the owner has a token, and there is at most one. -/
structure Sole (f : Focus ι) : Prop where
  shut : f.mutex = false → f.terminal = false ∧ f.foregroundToken = 0
  current : ∀ i, f.token i ≠ 0 → f.token i = f.foregroundToken
  one : ∀ i j, f.token i ≠ 0 → f.token j ≠ 0 → i = j

variable {f g : Focus ι}

omit [DecidableEq ι] in
theorem Sole.free (h : Sole f) (hfree : f.foregroundToken = 0) (i : ι) : f.token i = 0 := by
  by_contra hne
  exact hne ((h.current i hne).trans hfree)

/-- A token that is taken away. -/
theorem Sole.without (h : Sole f) (i : ι) (input : Input.InputState) :
    Sole { f with token := Function.update f.token i 0, input := input } where
  shut := h.shut
  current j hj := by
    by_cases hji : j = i
    · subst hji
      simp at hj
    · simp only [Function.update_of_ne hji] at hj ⊢
      exact h.current j hj
  one j k hj hk := by
    by_cases hji : j = i
    · subst hji
      simp at hj
    · by_cases hki : k = i
      · subst hki
        simp at hk
      · simp only [Function.update_of_ne hji, Function.update_of_ne hki] at hj hk
        exact h.one j k hj hk

/-- The console is shut down when no session has a token, as `kernel_application_system_shutdown` leaves it. -/
def Orderly (token : ι → Nat) (event : Event ι) : Prop := event = .shutdown → ∀ i, token i = 0

theorem Turn.sole {event : Event ι} (hturn : Turn f event g) (h : Sole f) (horderly : Orderly f.token event) : Sole g := by
  cases hturn with
  | keeps => exact h
  | opened terminal created hclosed =>
    have hfree := (h.shut hclosed).2
    exact ⟨by simp, fun i hi => absurd (h.free hfree i) hi, h.one⟩
  | rebound terminal now hopen => exact ⟨by simp [hopen], h.current, h.one⟩
  | closed => exact ⟨by simp, fun i hi => absurd (horderly rfl i) hi, h.one⟩
  | refused i now => exact h.without i f.input
  | unpresented i now hfree => exact h.without i _
  | @acquired i now token hterminal hfree htoken =>
    have hnone := h.free hfree
    refine ⟨fun hshut => ?_, fun j hj => ?_, fun j k hj hk => ?_⟩
    · have hshut' := h.shut hshut
      simp [hterminal] at hshut'
    · by_cases hji : j = i
      · subst hji
        simp
      · simp [hji, hnone j] at hj
    · have hi : ∀ m, Function.update f.token i token m ≠ 0 → m = i := by
        intro m hm
        by_contra hmi
        simp [hmi, hnone m] at hm
      rw [hi j hj, hi k hk]
  | dropped i howns => exact h.without i f.input
  | released i howns =>
    have hothers : ∀ j, Function.update f.token i 0 j = 0 := by
      intro j
      by_cases hji : j = i
      · simp [hji]
      · rw [Function.update_of_ne hji]
        by_contra hj
        exact hji (h.one j i hj howns.1)
    exact ⟨fun hshut => ⟨(h.shut hshut).1, rfl⟩, fun j hj => absurd (hothers j) hj, fun j k hj => absurd (hothers j) hj⟩
  | polled i now howns hpolled => exact ⟨h.shut, h.current, h.one⟩
  | keyboard keyboard => exact ⟨h.shut, h.current, h.one⟩

/-- A session becomes the owner by its own acquisition alone. -/
theorem Turn.owner {event : Event ι} (hturn : Turn f event g) (h : Sole f) {i : ι} (howns : g.Owns i) :
    f.Owns i ∨ ∃ now, event = .acquire i now ∧ g.input = Input.inputReset f.input false := by
  have hwithout : ∀ {j : ι}, Function.update f.token j 0 i ≠ 0 → Function.update f.token j 0 i = f.token i := by
    intro j hi
    have hij : i ≠ j := by
      rintro rfl
      simp at hi
    exact Function.update_of_ne hij _ _
  cases hturn with
  | keeps => exact .inl howns
  | opened terminal created hclosed => exact absurd howns.2 howns.1
  | rebound terminal now hopen => exact .inl howns
  | closed => exact absurd howns.2 howns.1
  | refused j now | unpresented j now hfree | dropped j hnot =>
    obtain ⟨hne, heq⟩ := howns
    have hsame := hwithout hne
    exact .inl ⟨hsame ▸ hne, hsame ▸ heq⟩
  | @acquired j now token hterminal hfree htoken =>
    by_cases hij : i = j
    · subst hij
      exact .inr ⟨now, rfl, rfl⟩
    · refine absurd (h.free hfree i) ?_
      have hne := howns.1
      simpa [hij] using hne
  | released j hj => exact absurd howns.2 howns.1
  | polled j now hj hpolled => exact .inl howns
  | keyboard keyboard => exact .inl howns

/-- The account of the queue, and who got what was polled. -/
structure Served (generation : UInt32) (f : Focus ι) : Prop where
  kept : Input.Kept generation f.input
  delivered : f.delivered.map Prod.snd = f.input.history.polled

variable {generation : UInt32}

omit [DecidableEq ι] in
theorem Served.reset (h : Served generation f) : Served generation { f with input := Input.inputReset f.input false } where
  kept := (h.kept.step (.reset false)).1
  delivered := by
    rw [Input.history_reset]
    exact h.delivered

theorem polled_keyboard (s : Input.InputState) (keyboard : Keyboard) :
    (Input.step s keyboard.operation).history.polled = s.history.polled := by
  cases keyboard with
  | submit event now => exact Input.polled_submit s event now
  | update now => exact Input.polled_update s now
  | takePowerActivity => rfl
  | getState resynchronize => cases resynchronize <;> rfl
  | reset clearPressed =>
    show (Input.inputReset s clearPressed).history.polled = s.history.polled
    rw [Input.history_reset]
    rfl

theorem Turn.served {event : Event ι} (hturn : Turn f event g) (h : Served generation f) :
    Served generation g ∧ f.input.position ≤ g.input.position := by
  have hreset := (h.kept.step (.reset false)).2
  cases hturn with
  | keeps | opened | rebound | closed | refused | dropped => exact ⟨⟨h.kept, h.delivered⟩, le_refl _⟩
  | unpresented | acquired | released => exact ⟨⟨h.reset.kept, h.reset.delivered⟩, hreset⟩
  | polled i now howns hpolled =>
    have hpoll := h.kept.step .poll
    refine ⟨⟨hpoll.1, ?_⟩, hpoll.2⟩
    unfold Input.polledEvent at hpolled
    split at hpolled
    · simp at hpolled
    · rename_i hcount
      simp only [Option.some.injEq] at hpolled
      simp [Input.tabosInputPoll, hcount, h.delivered, hpolled]
  | keyboard keyboard =>
    have hstep := h.kept.step keyboard.operation
    exact ⟨⟨hstep.1, h.delivered.trans (polled_keyboard f.input keyboard).symm⟩, hstep.2⟩

/-! ## Runs -/

/-- A run in which the console is shut down only when no session has a token. -/
def OrderlyRun (generation : UInt32) (events : List (Event ι)) : Prop :=
  Along (step presents) (fun c event => Orderly c.token event) (System.boot ι generation) events

theorem run_concat (c : System ι) (events : List (Event ι)) (event : Event ι) :
    run presents c (events ++ [event]) = step presents (run presents c events) event := by
  simp [run]

theorem orderlyRun_concat {events : List (Event ι)} {event : Event ι} :
    OrderlyRun presents generation (events ++ [event]) ↔
      OrderlyRun presents generation events ∧ Orderly (run presents (System.boot ι generation) events).token event := by
  simp [OrderlyRun, along_append, run]

theorem sole_run {events : List (Event ι)} (horderly : OrderlyRun presents generation events) :
    Sole (run presents (System.boot ι generation) events).focus ∧ Served generation (run presents (System.boot ι generation) events).focus := by
  have hinitial : Input.Kept generation (.initial generation) := ⟨Input.accounted_initial generation, List.Sublist.refl _⟩
  refine Along.invariant (fun c => Sole c.focus ∧ Served generation c.focus) ?_ horderly ⟨⟨fun _ => ⟨rfl, rfl⟩, ?_, ?_⟩, hinitial, rfl⟩
  · rintro c event ⟨hsole, hserved⟩ hevent
    have hturn := turn_step presents c event
    exact ⟨hturn.sole hsole hevent, (hturn.served hserved).1⟩
  · exact fun i hi => absurd rfl hi
  · exact fun i j hi => absurd rfl hi

/-- The owner acquired the console, has been its owner since, and whatever it polls next was put into the queue since. -/
theorem owner_since {events : List (Event ι)} (horderly : OrderlyRun presents generation events) {i : ι}
    (howns : (run presents (System.boot ι generation) events).Owns i) :
    ∃ before now between, events = before ++ .acquire i now :: between ∧
      (∀ part, part <+: between → (run presents (System.boot ι generation) (before ++ .acquire i now :: part)).Owns i) ∧
      (run presents (System.boot ι generation) before).input.events.length ≤
        (run presents (System.boot ι generation) events).input.position := by
  induction events using List.reverseRecOn with
  | nil => exact absurd rfl howns.1
  | append_singleton events event ih =>
    obtain ⟨hrun, hevent⟩ := (orderlyRun_concat presents).1 horderly
    obtain ⟨hsole, hserved⟩ := sole_run presents hrun
    have hturn := turn_step presents (run presents (System.boot ι generation) events) event
    have hposition := (hturn.served hserved).2
    rw [← run_concat] at hturn hposition
    by_cases hbefore : (run presents (System.boot ι generation) events).Owns i
    · obtain ⟨before, now, between, rfl, hparts, hpast⟩ := ih hrun hbefore
      refine ⟨before, now, between ++ [event], by simp, fun part hpart => ?_, hpast.trans hposition⟩
      rcases List.prefix_concat_iff.1 hpart with rfl | hpart
      · simpa using howns
      · exact hparts part hpart
    · rcases hturn.owner hsole howns with hold | ⟨now, rfl, hinput⟩
      · exact absurd hold hbefore
      · refine ⟨events, now, [], rfl, fun part hpart => ?_, ?_⟩
        · obtain rfl := List.prefix_nil.1 hpart
          exact howns
        · have hempty : ∀ s : Input.InputState, (Input.inputReset s false).position = s.events.length := by
            intro s
            simp [Input.inputReset, Input.discard, Input.changeGeneration, Input.InputState.position, Input.InputState.events,
              Library.Queue.clear]
          have hinput' : (run presents (System.boot ι generation) (events ++ [.acquire i now])).input =
              Input.inputReset (run presents (System.boot ι generation) events).input false := hinput
          rw [hinput', hempty]

/-- An event that the owner polls was put into the queue since the owner acquired the console. -/
theorem polled_since {events : List (Event ι)} (horderly : OrderlyRun presents generation events) {i : ι}
    (howns : (run presents (System.boot ι generation) events).Owns i) {event : Input.InputEvent}
    (hevent : Input.polledEvent (run presents (System.boot ι generation) events).input = some event) :
    ∃ before now between, events = before ++ .acquire i now :: between ∧
      (∀ part, part <+: between → (run presents (System.boot ι generation) (before ++ .acquire i now :: part)).Owns i) ∧
      event ∈ (run presents (System.boot ι generation) events).input.events.drop
        (run presents (System.boot ι generation) before).input.events.length := by
  obtain ⟨hsole, hserved⟩ := sole_run presents horderly
  obtain ⟨before, now, between, hsplit, hparts, hpast⟩ := owner_since presents horderly howns
  refine ⟨before, now, between, hsplit, hparts, ?_⟩
  obtain ⟨stamped, hstamped, rfl⟩ := Input.getElem?_position hserved.kept.toAccounted hevent
  generalize (run presents (System.boot ι generation) before).input.events.length = first at hpast
  generalize run presents (System.boot ι generation) events = c at hstamped hpast
  have hnext : c.input.events[c.input.position]? = some stamped.event := by
    have hstamped' : c.input.history.enqueued[c.input.position]? = some stamped := hstamped
    simp [Input.InputState.events, hstamped']
  refine List.mem_iff_getElem?.2 ⟨c.input.position - first, ?_⟩
  rw [List.getElem?_drop, Nat.add_sub_cancel' hpast]
  exact hnext

/-- The sessions poll the events of the queue in their order, none twice; at most one session has a token; and whatever a session polled was
put into the queue since that session acquired the console, which it owned from then to the poll. -/
theorem input_isolated (events : List (Event ι)) (horderly : OrderlyRun presents generation events) :
    let c := run presents (System.boot ι generation) events
    List.Sublist (c.history.delivered.map Prod.snd) c.input.events ∧ (∀ i j, c.token i ≠ 0 → c.token j ≠ 0 → i = j) ∧
      ∀ i event, (i, event) ∈ c.history.delivered → ∃ before now between now' after,
        events = before ++ .acquire i now :: between ++ .poll i now' :: after ∧
        (∀ part, part <+: between → (run presents (System.boot ι generation) (before ++ .acquire i now :: part)).Owns i) ∧
        event ∈ (run presents (System.boot ι generation) (before ++ .acquire i now :: between)).input.events.drop
          (run presents (System.boot ι generation) before).input.events.length := by
  intro c
  obtain ⟨hsole, hserved⟩ := sole_run presents horderly
  refine ⟨?_, hsole.one, ?_⟩
  · have hpolled : c.history.delivered.map Prod.snd = c.input.history.polled := hserved.delivered
    rw [hpolled]
    exact hserved.kept.drained.trans (List.take_sublist _ _)
  · intro i event hmem
    induction events using List.reverseRecOn with
    | nil => exact absurd hmem List.not_mem_nil
    | append_singleton events last ih =>
      obtain ⟨hrun, hlast⟩ := (orderlyRun_concat presents).1 horderly
      have hold : (i, event) ∈ (run presents (System.boot ι generation) events).history.delivered →
          ∃ before now between now' after, events ++ [last] = before ++ .acquire i now :: between ++ .poll i now' :: after ∧
          (∀ part, part <+: between → (run presents (System.boot ι generation) (before ++ .acquire i now :: part)).Owns i) ∧
          event ∈ (run presents (System.boot ι generation) (before ++ .acquire i now :: between)).input.events.drop
            (run presents (System.boot ι generation) before).input.events.length := by
        intro hin
        obtain ⟨hsole', hserved'⟩ := sole_run presents hrun
        obtain ⟨before, now, between, now', after, rfl, hrest⟩ := ih hrun hsole' hserved' hin
        exact ⟨before, now, between, now', after ++ [last], by simp, hrest⟩
      have hturn := turn_step presents (run presents (System.boot ι generation) events) last
      rw [← run_concat] at hturn
      have hmem' : (i, event) ∈ (run presents (System.boot ι generation) (events ++ [last])).focus.delivered := hmem
      generalize run presents (System.boot ι generation) (events ++ [last]) = d at hturn hmem'
      generalize d.focus = g at hturn hmem'
      cases hturn with
      | keeps | opened | rebound | closed | refused | unpresented | acquired | dropped | released | keyboard => exact hold hmem'
      | polled j now howns hpolled =>
        rcases List.mem_append.1 hmem' with hin | hin
        · exact hold hin
        · simp only [List.mem_singleton, Prod.mk.injEq] at hin
          obtain ⟨rfl, rfl⟩ := hin
          obtain ⟨before, now'', between, rfl, hparts, hsince⟩ := polled_since presents hrun howns hpolled
          exact ⟨before, now'', between, now, [], rfl, hparts, hsince⟩

/-- Two sessions that take turns. -/
def takingTurns : List (Event Bool) :=
  [.init .threeByThree true, .acquire false 0, .keyboard (.submit (Input.InputEvent.ofText 97) 1), .poll false 2,
    .keyboard (.submit (Input.InputEvent.ofText 98) 3), .release false, .acquire true 4,
    .keyboard (.submit (Input.InputEvent.ofText 99) 5), .poll true 6]

theorem input_isolated_taking_turns :
    let c := run (fun _ => true) (System.boot Bool 7) takingTurns
    List.Sublist (c.history.delivered.map Prod.snd) c.input.events ∧ (∀ i j, c.token i ≠ 0 → c.token j ≠ 0 → i = j) ∧
      ∀ i event, (i, event) ∈ c.history.delivered → ∃ before now between now' after,
        takingTurns = before ++ .acquire i now :: between ++ .poll i now' :: after ∧
        (∀ part, part <+: between → (run (fun _ => true) (System.boot Bool 7) (before ++ .acquire i now :: part)).Owns i) ∧
        event ∈ (run (fun _ => true) (System.boot Bool 7) (before ++ .acquire i now :: between)).input.events.drop
          (run (fun _ => true) (System.boot Bool 7) before).input.events.length :=
  input_isolated (fun _ => true) takingTurns (by simp [OrderlyRun, takingTurns, Orderly])

/-! ## An owner that acquires again -/

/-- The console is taken and no session owns it. -/
def Lost (f : Focus ι) : Prop := f.foregroundToken ≠ 0 ∧ ∀ i, f.token i = 0

theorem Turn.lost {event : Event ι} (hturn : Turn f event g) (h : Sole f) (hlost : Lost f) (hevent : event ≠ .shutdown) :
    Lost g ∧ g.delivered = f.delivered := by
  obtain ⟨htaken, hnone⟩ := hlost
  have hwithout : ∀ i j, Function.update f.token i 0 j = 0 := by
    intro i j
    by_cases hji : j = i
    · simp [hji]
    · rw [Function.update_of_ne hji, hnone]
  cases hturn with
  | keeps | rebound | keyboard => exact ⟨⟨htaken, hnone⟩, rfl⟩
  | opened terminal created hclosed => exact absurd (h.shut hclosed).2 htaken
  | closed => exact absurd rfl hevent
  | refused i now | dropped i hnot => exact ⟨⟨htaken, hwithout i⟩, rfl⟩
  | unpresented i now hfree => exact absurd hfree htaken
  | acquired i now hterminal hfree htoken => exact absurd hfree htaken
  | released i howns => exact absurd (hnone i) howns.1
  | polled i now howns hpolled => exact absurd (hnone i) howns.1

/-- An owner that acquires the console again loses it for all: until the console is shut down no session owns it or can acquire it, and
nothing is polled. -/
theorem acquire_again_loses (events : List (Event ι)) (horderly : OrderlyRun presents generation events) {i : ι}
    (howns : (run presents (System.boot ι generation) events).Owns i) (now : Nat) (later : List (Event ι)) (hlater : .shutdown ∉ later) :
    let c := run presents (System.boot ι generation) events
    let d := run presents c (.acquire i now :: later)
    (∀ j, ¬d.Owns j) ∧ (∀ j now, (tabosConsoleAcquire presents d j now).1 = false) ∧ d.history.delivered = c.history.delivered := by
  intro c d
  obtain ⟨hsole, hserved⟩ := sole_run presents horderly
  have hrefused : (tabosConsoleAcquire presents c i now).2 = { c with token := Function.update c.token i 0 } := by
    unfold tabosConsoleAcquire
    rw [if_pos (.inr fun hfree => howns.1 (howns.2.trans hfree))]
  have hfirst : Lost (step presents c (.acquire i now)).focus ∧ Sole (step presents c (.acquire i now)).focus ∧
      (step presents c (.acquire i now)).focus.delivered = c.history.delivered := by
    have hsame : (step presents c (.acquire i now)).focus = { c.focus with token := Function.update c.focus.token i 0 } :=
      congrArg System.focus hrefused
    rw [hsame]
    refine ⟨⟨fun hfree => howns.1 (howns.2.trans hfree), fun j => ?_⟩, hsole.without i c.focus.input, rfl⟩
    by_cases hji : j = i
    · simp [hji]
    · by_contra hj
      simp only [Function.update_of_ne hji] at hj
      exact hji (hsole.one j i hj howns.1)
  have hrun : ∀ later : List (Event ι), .shutdown ∉ later → ∀ e : System ι, Lost e.focus → Sole e.focus →
      Lost (run presents e later).focus ∧ (run presents e later).history.delivered = e.history.delivered := by
    intro later
    induction later with
    | nil => exact fun _ e hlost _ => ⟨hlost, rfl⟩
    | cons event later ih =>
      intro hlater e hlost hsole
      simp only [List.mem_cons, not_or] at hlater
      obtain ⟨hne, hrest⟩ := hlater
      have hturn := turn_step presents e event
      have hnext := hturn.lost hsole hlost (Ne.symm hne)
      have hsole' := hturn.sole hsole fun heq => absurd heq (Ne.symm hne)
      obtain ⟨hlast, hdelivered⟩ := ih hrest _ hnext.1 hsole'
      exact ⟨hlast, hdelivered.trans hnext.2⟩
  obtain ⟨hlost, hdelivered⟩ := hrun later hlater _ hfirst.1 hfirst.2.1
  refine ⟨fun j hj => hj.1 (hlost.2 j), fun j now => ?_, hdelivered.trans hfirst.2.2⟩
  unfold tabosConsoleAcquire
  rw [if_pos (.inr hlost.1)]

theorem acquire_again_loses_taking_turns :
    let c := run (fun _ => true) (System.boot Bool 7) takingTurns
    let d := run (fun _ => true) c [.acquire true 6, .poll true 7, .release true, .acquire false 8]
    (∀ j, ¬d.Owns j) ∧ (∀ j now, (tabosConsoleAcquire (fun _ => true) d j now).1 = false) ∧
      d.history.delivered = c.history.delivered :=
  acquire_again_loses (fun _ => true) takingTurns (by simp [OrderlyRun, takingTurns, Orderly]) ⟨by decide, by decide⟩ 6
    [.poll true 7, .release true, .acquire false 8] (by simp)

end Console
end TabOS
