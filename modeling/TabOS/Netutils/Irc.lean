import Mathlib.Data.UInt
import Mathlib.Data.List.Basic
import Mathlib.Data.List.Infix
import Mathlib.Data.List.TakeWhile

/-!
# Lines of IRC

The receive buffer and the session of `apps/netutils/irc/protocol.c`. A stream that arrives in pieces is compared with its segments
between newlines: those that end in a carriage return and fit the buffer are the lines of the session, and the session answers them.
-/

namespace TabOS
namespace Irc

def newline : UInt8 := 0x0A

def carriageReturn : UInt8 := 0x0D

/-- `IRC_PROTOCOL_LINE_MAX`. -/
def lineMax : Nat := 510

/-- The size of the array of a buffer. -/
def bufferSize : Nat := lineMax + 2

/-- `irc_protocol_buffer_t`, with the bytes of the array that are used. -/
structure Buffer where
  bytes : List UInt8
  discarding : Bool
  deriving DecidableEq

def Buffer.init : Buffer := ⟨[], false⟩

/-- A buffer while it is fed: the context of `handle_line`, and whether all bytes were accepted. -/
structure Feeding (Context : Type) where
  buffer : Buffer
  context : Context
  accepted : Bool

def Feeding.state {Context : Type} (f : Feeding Context) : Buffer × Context := (f.buffer, f.context)

section Feed

variable {Context : Type} (handleLine : Context → List UInt8 → Context)

/-- The loop of `irc_protocol_buffer_feed` at one byte. -/
def feedByte (f : Feeding Context) (byte : UInt8) : Feeding Context :=
  if f.buffer.discarding then
    if byte = newline then { f with buffer := ⟨[], false⟩ } else f
  else if byte = newline then
    if f.buffer.bytes.getLast? = some carriageReturn then
      { f with buffer := ⟨[], false⟩, context := handleLine f.context f.buffer.bytes.dropLast }
    else { f with buffer := ⟨[], false⟩ }
  else if f.buffer.bytes.length = bufferSize - 1 then { f with buffer := ⟨[], true⟩, accepted := false }
  else { f with buffer := ⟨f.buffer.bytes ++ [byte], false⟩ }

/-- `irc_protocol_buffer_feed`. -/
def bufferFeed (buffer : Buffer) (context : Context) (bytes : List UInt8) : Feeding Context :=
  bytes.foldl (feedByte handleLine) ⟨buffer, context, true⟩

/-- The buffer and the context after pieces of a stream. -/
def bufferFeeds (state : Buffer × Context) (pieces : List (List UInt8)) : Buffer × Context :=
  pieces.foldl (fun s piece => (bufferFeed handleLine s.1 s.2 piece).state) state

end Feed

/-- The bytes of a string in an array. -/
def cString (bytes : List UInt8) : List UInt8 := bytes.takeWhile (· ≠ 0)

/-- What `snprintf` leaves of a text in an array of some size. -/
def printed (size : Nat) (text : List UInt8) : List UInt8 := text.take (size - 1)

/-- `"PING "`. -/
def ping : List UInt8 := [0x50, 0x49, 0x4E, 0x47, 0x20]

/-- `"PONG "`. -/
def pong : List UInt8 := [0x50, 0x4F, 0x4E, 0x47, 0x20]

/-- `"JOIN "`. -/
def join : List UInt8 := [0x4A, 0x4F, 0x49, 0x4E, 0x20]

/-- `" 001 "`. -/
def welcome : List UInt8 := [0x20, 0x30, 0x30, 0x31, 0x20]

/-- `"\r\n"`. -/
def ending : List UInt8 := [carriageReturn, newline]

/-- The size of the array for what is sent. -/
def outputSize : Nat := lineMax + 8

def makePong (line : List UInt8) : Option (List UInt8) :=
  if ping <+: line then
    let text := pong ++ line.drop 5 ++ ending
    if text.length < outputSize then some text else none
  else none

def isWelcome (line : List UInt8) : Prop := welcome <:+: line

instance (line : List UInt8) : Decidable (isWelcome line) := inferInstanceAs (Decidable (_ <:+: _))

/-- What a session does with its callbacks. -/
inductive Event where
  | send (line : List UInt8)
  | display (line : List UInt8)
  deriving DecidableEq

/-- `irc_protocol_session_t`, with what its callbacks were given. -/
structure Session where
  initialChannel : Option (List UInt8)
  channel : List UInt8
  channelSize : Nat
  registered : Bool
  events : List Event
  deriving DecidableEq

def Session.init (initialChannel : Option (List UInt8)) (channelSize : Nat) : Session := ⟨initialChannel, [], channelSize, false, []⟩

def Session.send (session : Session) (line : List UInt8) : Session := { session with events := session.events ++ [.send line] }

def Session.display (session : Session) (line : List UInt8) : Session := { session with events := session.events ++ [.display line] }

/-- The part of `handle_session_line` that registers the session. -/
def Session.register (session : Session) : Session :=
  match session.initialChannel with
  | none => { session with registered := true }
  | some initialChannel =>
    let channel := printed session.channelSize initialChannel
    { session with registered := true, channel := channel }.send (printed outputSize (join ++ channel ++ ending))

/-- The part of `handle_session_line` that answers a ping. -/
def Session.reply (session : Session) (line : List UInt8) : Session :=
  match makePong line with
  | some output => session.send output
  | none => session

def handleSessionLine (session : Session) (bytes : List UInt8) : Session :=
  let line := cString bytes
  let session := session.reply line
  let session := if session.registered = false ∧ isWelcome line then session.register else session
  session.display line

/-- `irc_protocol_session_feed`; a session without space for its channel takes nothing. -/
def sessionFeed (state : Buffer × Session) (bytes : List UInt8) : (Buffer × Session) × Bool :=
  if state.2.channelSize = 0 then (state, false)
  else
    let f := bufferFeed handleSessionLine state.1 state.2 bytes
    (f.state, f.accepted)

/-- A session after pieces of a stream. -/
def sessionFeeds (state : Buffer × Session) (pieces : List (List UInt8)) : Buffer × Session :=
  pieces.foldl (fun s piece => (sessionFeed s piece).1) state

/-! ## The lines of a stream -/

/-- The segments of a stream that a newline ends. -/
def segments (stream : List UInt8) : List (List UInt8) := (stream.splitOn newline).dropLast

/-- The line of a segment. -/
def lineOf (segment : List UInt8) : Option (List UInt8) :=
  if segment.length ≤ 511 ∧ segment.getLast? = some carriageReturn then some segment.dropLast else none

/-- The lines of a stream. -/
def linesOf (stream : List UInt8) : List (List UInt8) := (segments stream).filterMap lineOf

/-- The buffer after the bytes of a segment that has not ended. -/
def bufferOf (segment : List UInt8) : Buffer := if segment.length ≤ 511 then ⟨segment, false⟩ else ⟨[], true⟩

section Lines

variable {Context : Type} (handleLine : Context → List UInt8 → Context)

theorem feedByte_of_ne (segment : List UInt8) (context : Context) (accepted : Bool) {byte : UInt8} (hbyte : byte ≠ newline) :
    ∃ accepted', feedByte handleLine ⟨bufferOf segment, context, accepted⟩ byte = ⟨bufferOf (segment ++ [byte]), context, accepted'⟩ := by
  have hlength : (segment ++ [byte]).length = segment.length + 1 := List.length_append
  unfold feedByte bufferOf
  rw [hlength]
  by_cases hfull : segment.length ≤ 511
  · rw [if_pos hfull]
    have hsize : bufferSize - 1 = 511 := rfl
    dsimp only
    rw [if_neg Bool.false_ne_true, if_neg hbyte, hsize]
    by_cases hlast : segment.length = 511
    · rw [if_pos hlast, if_neg (show ¬segment.length + 1 ≤ 511 from by omega)]
      exact ⟨_, rfl⟩
    · rw [if_neg hlast, if_pos (show segment.length + 1 ≤ 511 from by omega)]
      exact ⟨_, rfl⟩
  · rw [if_neg hfull, if_neg (show ¬segment.length + 1 ≤ 511 from by omega)]
    dsimp only
    rw [if_pos rfl, if_neg hbyte]
    exact ⟨_, rfl⟩

/-- The newline of a segment. -/
theorem feedByte_newline (segment : List UInt8) (context : Context) (accepted : Bool) :
    feedByte handleLine ⟨bufferOf segment, context, accepted⟩ newline =
      ⟨bufferOf [], (lineOf segment).elim context (handleLine context), accepted⟩ := by
  by_cases hfull : segment.length ≤ 511
  · have hbuffer : bufferOf segment = ⟨segment, false⟩ := if_pos hfull
    by_cases hreturn : segment.getLast? = some carriageReturn
    · have hline : lineOf segment = some segment.dropLast := if_pos ⟨hfull, hreturn⟩
      rw [hbuffer, hline]
      exact if_pos hreturn
    · have hline : lineOf segment = none := if_neg fun h => hreturn h.2
      rw [hbuffer, hline]
      exact if_neg hreturn
  · have hbuffer : bufferOf segment = ⟨[], true⟩ := if_neg hfull
    have hline : lineOf segment = none := if_neg fun h => hfull h.1
    rw [hbuffer, hline]
    rfl

theorem segments_of_not_mem {stream : List UInt8} (h : newline ∉ stream) : segments stream = [] := by
  rw [segments, List.splitOn_eq_singleton h]
  rfl

theorem segments_append {segment : List UInt8} (h : newline ∉ segment) (rest : List UInt8) :
    segments (segment ++ newline :: rest) = segment :: segments rest := by
  unfold segments
  rw [List.splitOn_append_cons_self_of_not_mem h]
  exact List.dropLast_cons_of_ne_nil (List.splitOn_ne_nil newline rest)

/-- A buffer within a segment that is fed the rest of a stream. -/
theorem feed_segment (stream : List UInt8) {segment : List UInt8} (hsegment : newline ∉ segment) (context : Context) (accepted : Bool) :
    (stream.foldl (feedByte handleLine) ⟨bufferOf segment, context, accepted⟩).context =
      (linesOf (segment ++ stream)).foldl handleLine context := by
  induction stream generalizing segment context accepted with
  | nil =>
    rw [List.append_nil, linesOf, segments_of_not_mem hsegment]
    rfl
  | cons byte rest ih =>
    rw [List.foldl_cons]
    by_cases hbyte : byte = newline
    · rw [hbyte, feedByte_newline, ih List.not_mem_nil, List.nil_append]
      unfold linesOf
      rw [segments_append hsegment, List.filterMap_cons]
      cases lineOf segment <;> rfl
    · obtain ⟨accepted', hfeed⟩ := feedByte_of_ne handleLine segment context accepted hbyte
      have happend : newline ∉ segment ++ [byte] :=
        List.not_mem_append hsegment fun h => hbyte (List.mem_singleton.1 h).symm
      rw [hfeed, ih happend, List.append_assoc]
      rfl

theorem feedByte_state {f g : Feeding Context} (h : f.state = g.state) (byte : UInt8) :
    (feedByte handleLine f byte).state = (feedByte handleLine g byte).state := by
  obtain ⟨buffer, context, accepted⟩ := f
  obtain ⟨buffer', context', accepted'⟩ := g
  obtain ⟨rfl, rfl⟩ := Prod.mk.inj h
  unfold feedByte
  dsimp only
  split
  · split <;> rfl
  split
  · split <;> rfl
  split <;> rfl

theorem foldl_feedByte_state (bytes : List UInt8) {f g : Feeding Context} (h : f.state = g.state) :
    (bytes.foldl (feedByte handleLine) f).state = (bytes.foldl (feedByte handleLine) g).state := by
  induction bytes generalizing f g with
  | nil => exact h
  | cons byte bytes ih => exact ih (feedByte_state handleLine h byte)

/-- The pieces of a stream are fed like the stream. -/
theorem bufferFeeds_eq (state : Buffer × Context) (pieces : List (List UInt8)) :
    bufferFeeds handleLine state pieces = (bufferFeed handleLine state.1 state.2 pieces.flatten).state := by
  induction pieces generalizing state with
  | nil => rfl
  | cons piece pieces ih =>
    have hcons := ih (bufferFeed handleLine state.1 state.2 piece).state
    unfold bufferFeed at hcons ⊢
    rw [List.flatten_cons, List.foldl_append]
    exact hcons.trans (foldl_feedByte_state handleLine pieces.flatten rfl)

theorem bufferFeed_invariant {P : Context → Prop} (hP : ∀ context line, P context → P (handleLine context line)) (bytes : List UInt8)
    {f : Feeding Context} (hf : P f.context) : P (bytes.foldl (feedByte handleLine) f).context := by
  induction bytes generalizing f with
  | nil => exact hf
  | cons byte bytes ih =>
    refine ih ?_
    unfold feedByte
    split
    · split <;> exact hf
    split
    · split
      · exact hP f.context _ hf
      · exact hf
    split <;> exact hf

end Lines

/-! ## The session -/

theorem Session.register_channelSize (session : Session) : session.register.channelSize = session.channelSize := by
  unfold Session.register
  split <;> rfl

theorem Session.reply_channelSize (session : Session) (line : List UInt8) : (session.reply line).channelSize = session.channelSize := by
  unfold Session.reply
  split <;> rfl

theorem handleSessionLine_channelSize (session : Session) (bytes : List UInt8) :
    (handleSessionLine session bytes).channelSize = session.channelSize := by
  unfold handleSessionLine Session.display
  dsimp only
  split
  · exact (Session.register_channelSize _).trans (session.reply_channelSize _)
  · exact session.reply_channelSize _

/-- A session with space for its channel is given the lines of the stream. -/
theorem sessionFeeds_eq (state : Buffer × Session) (hsize : state.2.channelSize ≠ 0) (pieces : List (List UInt8)) :
    sessionFeeds state pieces = bufferFeeds handleSessionLine state pieces := by
  induction pieces generalizing state with
  | nil => rfl
  | cons piece pieces ih =>
    have hfeed : (sessionFeed state piece).1 = (bufferFeed handleSessionLine state.1 state.2 piece).state := by
      unfold sessionFeed
      rw [if_neg hsize]
    have hnext : (bufferFeed handleSessionLine state.1 state.2 piece).context.channelSize ≠ 0 :=
      @bufferFeed_invariant _ handleSessionLine (fun session => session.channelSize ≠ 0)
        (fun session line h => (handleSessionLine_channelSize session line).trans_ne h) piece ⟨state.1, state.2, true⟩ hsize
    have hrest := ih (bufferFeed handleSessionLine state.1 state.2 piece).state hnext
    unfold sessionFeeds bufferFeeds at hrest ⊢
    rw [List.foldl_cons, List.foldl_cons, hfeed]
    exact hrest

theorem session_lines (initialChannel : Option (List UInt8)) {channelSize : Nat} (hsize : 0 < channelSize) (pieces : List (List UInt8)) :
    (sessionFeeds (.init, .init initialChannel channelSize) pieces).2 =
      (linesOf pieces.flatten).foldl handleSessionLine (.init initialChannel channelSize) := by
  rw [sessionFeeds_eq _ (Nat.ne_of_gt hsize), bufferFeeds_eq]
  exact feed_segment handleSessionLine pieces.flatten List.not_mem_nil (.init initialChannel channelSize) true

/-- The answer to a line. -/
def answer (line : List UInt8) : List Event := if ping <+: line then [.send (pong ++ line.drop 5 ++ ending)] else []

/-- The message that joins the initial channel, cut to what fits. -/
def joining (initialChannel : Option (List UInt8)) (channelSize : Nat) : List Event :=
  match initialChannel with
  | none => []
  | some initialChannel => [.send (printed outputSize (join ++ printed channelSize initialChannel ++ ending))]

/-- A line is answered and displayed. -/
def answered (line : List UInt8) : List Event := answer line ++ [.display line]

/-- What is to be done with lines: each is answered and displayed, and the channel is joined at the first with the welcome. -/
def sessionEvents (joins : List Event) : List (List UInt8) → List Event
  | [] => []
  | line :: lines =>
    if isWelcome line then answer line ++ joins ++ [.display line] ++ lines.flatMap answered
    else answered line ++ sessionEvents joins lines

theorem Session.reply_eq (session : Session) {line : List UInt8} (hlength : line.length ≤ lineMax) :
    session.reply line = { session with events := session.events ++ answer line } := by
  by_cases hping : ping <+: line
  · have hfits : (pong ++ line.drop 5 ++ ending).length < outputSize := by
      rw [List.length_append, List.length_append, List.length_drop]
      unfold lineMax at hlength
      unfold outputSize lineMax pong ending
      simp only [List.length_cons, List.length_nil]
      omega
    have hpong : makePong line = some (pong ++ line.drop 5 ++ ending) := (if_pos hping).trans (if_pos hfits)
    unfold Session.reply answer
    rw [hpong, if_pos hping]
    rfl
  · have hpong : makePong line = none := if_neg hping
    unfold Session.reply answer
    rw [hpong, if_neg hping, List.append_nil]

theorem Session.register_eq (session : Session) : ∃ channel, session.register =
    { session with
      registered := true
      channel := channel
      events := session.events ++ joining session.initialChannel session.channelSize } := by
  unfold Session.register joining
  split
  · rename_i h
    refine ⟨session.channel, ?_⟩
    rw [h, List.append_nil]
  · rename_i h
    rw [h]
    exact ⟨_, rfl⟩

theorem cString_of_noNul {line : List UInt8} (hnul : 0 ∉ line) : cString line = line := by
  rw [cString, List.takeWhile_eq_self_iff]
  exact fun byte hbyte => decide_eq_true fun h => hnul (h ▸ hbyte)

/-- A line of a session that does not register at it. -/
theorem handleSessionLine_of_not (session : Session) {line : List UInt8} (hnul : 0 ∉ line) (hlength : line.length ≤ lineMax)
    (hregister : ¬(session.registered = false ∧ isWelcome line)) :
    handleSessionLine session line = { session with events := session.events ++ answered line } := by
  unfold handleSessionLine
  dsimp only
  rw [cString_of_noNul hnul, session.reply_eq hlength, if_neg hregister]
  unfold Session.display answered
  dsimp only
  rw [List.append_assoc]

/-- The line at which a session registers. -/
theorem handleSessionLine_of_welcome (session : Session) {line : List UInt8} (hnul : 0 ∉ line) (hlength : line.length ≤ lineMax)
    (hregister : session.registered = false ∧ isWelcome line) :
    ∃ channel, handleSessionLine session line =
      { session with
        registered := true
        channel := channel
        events := session.events ++ (answer line ++ joining session.initialChannel session.channelSize ++ [.display line]) } := by
  obtain ⟨channel, hchannel⟩ := Session.register_eq { session with events := session.events ++ answer line }
  refine ⟨channel, ?_⟩
  unfold handleSessionLine
  dsimp only
  rw [cString_of_noNul hnul, session.reply_eq hlength, if_pos hregister, hchannel]
  unfold Session.display
  dsimp only
  rw [List.append_assoc, List.append_assoc, List.append_assoc]

/-- A line that a session can be given of a stream without zeros. -/
def Fits (line : List UInt8) : Prop := 0 ∉ line ∧ line.length ≤ lineMax

theorem registered_events (lines : List (List UInt8)) (hlines : ∀ line ∈ lines, Fits line) {session : Session}
    (hregistered : session.registered = true) :
    (lines.foldl handleSessionLine session).events = session.events ++ lines.flatMap answered := by
  induction lines generalizing session with
  | nil => exact (List.append_nil session.events).symm
  | cons line lines ih =>
    obtain ⟨hnul, hlength⟩ := hlines line List.mem_cons_self
    have hnot : ¬(session.registered = false ∧ isWelcome line) := fun h => Bool.false_ne_true (h.1.symm.trans hregistered)
    rw [List.foldl_cons, handleSessionLine_of_not session hnul hlength hnot, List.flatMap_cons, ← List.append_assoc]
    exact ih (fun other hother => hlines other (List.mem_cons_of_mem line hother)) hregistered

theorem unregistered_events (lines : List (List UInt8)) (hlines : ∀ line ∈ lines, Fits line) {session : Session}
    (hregistered : session.registered = false) :
    (lines.foldl handleSessionLine session).events =
      session.events ++ sessionEvents (joining session.initialChannel session.channelSize) lines := by
  induction lines generalizing session with
  | nil => exact (List.append_nil session.events).symm
  | cons line lines ih =>
    obtain ⟨hnul, hlength⟩ := hlines line List.mem_cons_self
    have hrest (other : List UInt8) (hother : other ∈ lines) : Fits other := hlines other (List.mem_cons_of_mem line hother)
    rw [List.foldl_cons, sessionEvents]
    by_cases hwelcome : isWelcome line
    · obtain ⟨channel, hline⟩ := handleSessionLine_of_welcome session hnul hlength ⟨hregistered, hwelcome⟩
      rw [if_pos hwelcome, hline, registered_events lines hrest rfl, List.append_assoc]
    · rw [if_neg hwelcome, handleSessionLine_of_not session hnul hlength fun h => hwelcome h.2, ← List.append_assoc]
      exact ih hrest hregistered

theorem mem_of_mem_segments {stream segment : List UInt8} (h : segment ∈ segments stream) {byte : UInt8} (hbyte : byte ∈ segment) :
    byte ∈ stream := by
  induction hlength : stream.length using Nat.strong_induction_on generalizing stream with
  | _ length ih =>
    by_cases hmem : newline ∈ stream
    · obtain ⟨first, rest, rfl, hfirst⟩ := List.eq_append_cons_of_mem hmem
      rw [segments_append hfirst] at h
      rcases List.mem_cons.1 h with rfl | h
      · exact List.mem_append_left _ hbyte
      · have hlt : rest.length < length := by
          rw [← hlength, List.length_append, List.length_cons]
          omega
        exact List.mem_append_right first (List.mem_cons_of_mem newline (ih rest.length hlt h rfl))
    · rw [segments_of_not_mem hmem] at h
      exact absurd h List.not_mem_nil

theorem linesOf_fits {stream : List UInt8} (hnul : 0 ∉ stream) {line : List UInt8} (h : line ∈ linesOf stream) : Fits line := by
  obtain ⟨segment, hsegment, hline⟩ := List.mem_filterMap.1 h
  unfold lineOf at hline
  split at hline
  · rename_i hfits
    obtain rfl := Option.some.inj hline
    refine ⟨fun hzero => hnul (mem_of_mem_segments hsegment (List.dropLast_subset segment hzero)), ?_⟩
    rw [List.length_dropLast]
    unfold lineMax
    omega
  · cases hline

/-- A session is given the lines of the stream, however it arrives, and answers them and joins its channel as it is to do. -/
theorem session_answers_lines (initialChannel : Option (List UInt8)) {channelSize : Nat} (hsize : 0 < channelSize)
    (pieces : List (List UInt8)) :
    (sessionFeeds (.init, .init initialChannel channelSize) pieces).2 =
        (linesOf pieces.flatten).foldl handleSessionLine (.init initialChannel channelSize) ∧
      (0 ∉ pieces.flatten → (sessionFeeds (.init, .init initialChannel channelSize) pieces).2.events =
        sessionEvents (joining initialChannel channelSize) (linesOf pieces.flatten)) := by
  have hlines := session_lines initialChannel hsize pieces
  refine ⟨hlines, fun hnul => ?_⟩
  rw [hlines]
  exact unregistered_events (linesOf pieces.flatten) (fun line hline => linesOf_fits hnul hline) rfl

/-- A welcome in two pieces. -/
theorem session_answers_lines_welcome : (sessionFeeds (.init, .init none 1) [welcome, ending]).2.events =
    sessionEvents (joining none 1) (linesOf [welcome, ending].flatten) :=
  (session_answers_lines none (by decide) [welcome, ending]).2 (by decide)

/-- The array of the program for a channel takes 480 bytes: a longer initial channel is not the one that is joined. -/
theorem long_channel_is_cut :
    .send (join ++ List.replicate 481 0x61 ++ ending) ∉
      (sessionFeeds (.init, .init (some (List.replicate 481 0x61)) 481) [welcome ++ ending]).2.events := by
  have hevents : (sessionFeeds (.init, .init (some (List.replicate 481 0x61)) 481) [welcome ++ ending]).2.events =
      [.send (printed outputSize (join ++ printed 481 (List.replicate 481 0x61) ++ ending)), .display welcome] := by rfl
  rw [hevents]
  intro hmem
  rcases List.mem_cons.1 hmem with h | h
  · have hlength := congrArg List.length (Event.send.inj h)
    unfold printed outputSize lineMax join ending at hlength
    simp only [List.length_take, List.length_append, List.length_replicate, List.length_cons, List.length_nil] at hlength
    omega
  · cases List.mem_singleton.1 h

end Irc
end TabOS
