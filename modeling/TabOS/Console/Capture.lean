import TabOS.Console.Focus

/-!
# The capture of what is written

A buffer is written at its end and read at its beginning; what does not fit is dropped and remembered. What was read and what the buffer
holds are then a part, in its order, of what was written, and all of it unless the overflow is set.
-/

namespace TabOS
namespace Console

open Library

variable {ι : Type}

/-- Parts of two lists together are all of them only if both are. -/
theorem append_eq_append_of_sublist {α : Type*} {a b p q : List α} (ha : List.Sublist a p) (hb : List.Sublist b q) :
    a ++ b = p ++ q ↔ a = p ∧ b = q := by
  refine ⟨fun heq => ?_, fun ⟨hap, hbq⟩ => by rw [hap, hbq]⟩
  have hlength := congrArg List.length heq
  have hleft := ha.length_le
  have hright := hb.length_le
  simp only [List.length_append] at hlength
  exact ⟨ha.eq_of_length (by omega), hb.eq_of_length (by omega)⟩

/-- The part of the console that the capture is. -/
structure Capture where
  buffer : Option (List UInt8)
  overflow : Bool
  captured : List UInt8
  captureRead : List UInt8

def System.capture (c : System ι) : Capture where
  buffer := c.captureBuffer
  overflow := c.captureOverflow
  captured := c.history.captured
  captureRead := c.history.captureRead

theorem Repainted.capture {c d : System ι} (h : Repainted c d) : d.capture = c.capture := by
  rw [h.eq]
  rfl

/-- The buffer holds no more than fits; what was read and what it holds are a part of what was written, and the overflow is set if that is
not all. -/
structure Exact (s : Capture) : Prop where
  fits : ∀ buffer ∈ s.buffer, buffer.length ≤ captureCapacity
  part : ∀ buffer ∈ s.buffer, List.Sublist (s.captureRead ++ buffer) s.captured
  whole : ∀ buffer ∈ s.buffer, (s.overflow = false ↔ s.captureRead ++ buffer = s.captured)

/-- A capture that does not run. -/
theorem exact_of_none {s : Capture} (h : s.buffer = none) : Exact s := ⟨by simp [h], by simp [h], by simp [h]⟩

theorem exact_captureBytes {c : System ι} (h : Exact c.capture) (data : List UInt8) : Exact (captureBytes c data).capture := by
  unfold captureBytes
  cases hbuffer : c.captureBuffer with
  | none => exact h
  | some buffer =>
    have hmem : buffer ∈ c.capture.buffer := hbuffer
    have hfits := h.fits buffer hmem
    have hpart : List.Sublist (c.history.captureRead ++ buffer) c.history.captured := h.part buffer hmem
    have hwhole := h.whole buffer hmem
    refine ⟨?_, ?_, ?_⟩
    · simp only [System.capture, Option.mem_def, Option.some.injEq]
      rintro new rfl
      simp only [List.length_append, List.length_take]
      omega
    · simp only [System.capture, Option.mem_def, Option.some.injEq]
      rintro new rfl
      rw [← List.append_assoc]
      exact hpart.append (List.take_sublist _ _)
    · simp only [System.capture, Option.mem_def, Option.some.injEq]
      rintro new rfl
      have hcopied : decide ((data.take (captureCapacity - buffer.length)).length ≠ data.length) = false ↔
          data.take (captureCapacity - buffer.length) = data := by
        rw [decide_eq_false_iff_not, not_not]
        exact ⟨(List.take_sublist _ _).eq_of_length, fun heq => by rw [heq]⟩
      rw [← List.append_assoc, append_eq_append_of_sublist hpart (List.take_sublist _ _), Bool.or_eq_false_iff, hcopied]
      exact and_congr_left fun _ => hwhole

theorem exact_captureStart (c : System ι) (h : Exact c.capture) (allocates : Bool) :
    Exact (consoleCaptureStart c allocates).2.capture := by
  unfold consoleCaptureStart
  split
  · exact h
  · dsimp only
    cases c.captureBuffer.isSome || allocates with
    | false => exact exact_of_none rfl
    | true => exact ⟨by simp [System.capture], by simp [System.capture], by simp [System.capture]⟩

theorem exact_captureRead (c : System ι) (h : Exact c.capture) (capacity : Nat) : Exact (consoleCaptureRead c capacity).2.capture := by
  unfold consoleCaptureRead
  split
  · exact h
  · cases hbuffer : c.captureBuffer with
    | none => exact h
    | some buffer =>
      have hmem : buffer ∈ c.capture.buffer := hbuffer
      have hsplit : c.history.captureRead ++ buffer.take capacity ++ buffer.drop capacity = c.history.captureRead ++ buffer := by
        rw [List.append_assoc, List.take_append_drop]
      refine ⟨?_, ?_, ?_⟩
      · have hfits := h.fits buffer hmem
        simp [System.capture]
        omega
      · have hpart := h.part buffer hmem
        simp only [System.capture, Option.mem_def, Option.some.injEq, forall_eq']
        rw [hsplit]
        exact hpart
      · have hwhole := h.whole buffer hmem
        simp only [System.capture, Option.mem_def, Option.some.injEq, forall_eq']
        rw [hsplit]
        exact hwhole

theorem exact_captureStop (c : System ι) (h : Exact c.capture) : Exact (consoleCaptureStop c).capture := by
  unfold consoleCaptureStop
  split
  · exact h
  · exact exact_of_none rfl

variable (presents : Nat → Bool)

theorem exact_serve (c : System ι) (h : Exact c.capture) (i : ι) (now : Nat) (captured : List (List UInt8)) (change : Terminal → Terminal) :
    Exact (serve presents c i now captured change).2.capture := by
  by_cases hserves : c.Serves i
  · rw [(repainted_serve presents hserves now captured change).capture]
    exact foldl_invariant (fun d : System ι => Exact d.capture) (fun d data hd => exact_captureBytes hd data) captured h
  · unfold serve
    rw [if_neg hserves]
    exact h

theorem exact_writePanic (c : System ι) (h : Exact c.capture) (text : List UInt8) : Exact (consoleWritePanic presents c text).2.capture := by
  by_cases hrefused : c.mutex = false ∨ c.activeTerminal.isSome = false
  · unfold consoleWritePanic
    rw [if_pos hrefused]
    exact h
  · rw [(repainted_consoleWritePanic presents hrefused text).capture]
    exact exact_captureBytes (exact_captureBytes h text) [10]

theorem capture_acquire [DecidableEq ι] (c : System ι) (i : ι) (now : Nat) : (tabosConsoleAcquire presents c i now).2.capture = c.capture := by
  unfold tabosConsoleAcquire
  split
  · rfl
  · dsimp only
    generalize hd : restartCursorBlink _ now = d
    have hcapture : (presentConsole presents d).2.capture = c.capture := by
      rw [(repainted_presentConsole presents d).capture, ← hd, (repainted_restartCursorBlink _ now).capture]
      rfl
    split <;> exact hcapture

theorem capture_release [DecidableEq ι] (c : System ι) (i : ι) : (tabosConsoleRelease presents c i).capture = c.capture := by
  unfold tabosConsoleRelease
  by_cases howns : c.Owns i
  · simp only [if_pos howns]
    exact (repainted_presentConsole presents _).capture
  · rw [if_neg howns]
    rfl

theorem exact_step [DecidableEq ι] (c : System ι) (h : Exact c.capture) (event : Event ι) : Exact (step presents c event).capture := by
  have hsame : ∀ {d : System ι}, d.capture = c.capture → Exact d.capture := fun hd => hd ▸ h
  cases event with
  | init terminal created =>
    refine hsame ?_
    show (consoleInit c terminal created).2.capture = _
    unfold consoleInit
    split <;> rfl
  | rebind terminal now =>
    refine hsame ?_
    show (consoleRebind c terminal now).capture = _
    unfold consoleRebind
    dsimp only
    split_ifs
    · rfl
    · exact (repainted_restartCursorBlink _ now).capture
    · rfl
  | resize heap framebuffer scale now => exact hsame (repainted_consoleResize presents c heap framebuffer scale now).capture
  | writePanic text => exact exact_writePanic presents c h text
  | shutdown =>
    have hstop := exact_captureStop c h
    show Exact (consoleShutdown c).capture
    unfold consoleShutdown
    dsimp only
    split <;> exact hstop
  | update now => exact hsame (repainted_consoleUpdate presents c now).capture
  | setGraphicsActive active now => exact hsame (repainted_consoleSetGraphicsActive presents c active now).capture
  | captureStart allocates => exact exact_captureStart c h allocates
  | captureRead capacity => exact exact_captureRead c h capacity
  | captureStop => exact exact_captureStop c h
  | acquire i now => exact hsame (capture_acquire presents c i now)
  | release i => exact hsame (capture_release presents c i)
  | writeBytes i data now => exact exact_serve presents c h i now _ _
  | writeLine i text now => exact exact_serve presents c h i now _ _
  | clear i now => exact exact_serve presents c h i now _ _
  | scroll i scroll => exact hsame (repainted_updateViewport presents c i scroll).capture
  | poll i now =>
    refine hsame ?_
    show (tabosConsolePoll c i now).capture = _
    unfold tabosConsolePoll
    split
    · rfl
    · exact (repainted_restartCursorBlink _ now).capture
  | keyboard keyboard => exact hsame rfl

/-- A capture of a line, the first byte of which was read. -/
def capturedLine : List (Event Bool) :=
  [.init .threeByThree true, .captureStart true, .acquire true 0, .writeLine true [104, 105] 1, .writeBytes false [33] 2, .captureRead 1]

end Console
end TabOS
