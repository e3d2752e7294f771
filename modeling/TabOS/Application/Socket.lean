import TabOS.Library.Handles
import TabOS.Library.Run
import Mathlib.Data.Multiset.AddSub
import Mathlib.Logic.Function.Basic

/-!
# The sockets of an application

The tables of sockets and of wait sources in `loader/elf_application.c`. What the platform answers is an argument of every operation. A
history variable that no branch reads has the platform sockets that were opened or accepted and those that were closed, the latest first;
a platform socket is closed by `platform_network_socket_close` whatever it returns.
-/

namespace TabOS
namespace Application

open Library

/-- `ELF_SOCKET_CAPACITY`. -/
def elfSocketCapacity : Nat := 8

/-- `ELF_SOCKET_GENERATION_MAX`. -/
def elfSocketGenerationMax : Nat := 0x7fffffff / elfSocketCapacity

/-- `ELF_WAIT_SOURCE_CAPACITY`. -/
def elfWaitSourceCapacity : Nat := 16

/-- `ELF_WAIT_SOURCE_GENERATION_MAX`. -/
def elfWaitSourceGenerationMax : Nat := 0x7fffffff / elfWaitSourceCapacity

/-- The values below which a `uint32_t` lies. -/
def uint32Limit : Nat := 0x100000000

instance : NeZero elfSocketCapacity := ⟨by decide⟩

instance : NeZero elfWaitSourceCapacity := ⟨by decide⟩

/-- `TABOS_WAIT_SOURCE_INVALID`. -/
def waitSourceInvalid : Int := -1

def ebadf : Int := 9
def einval : Int := 22
def enfile : Int := 23
def emfile : Int := 24

/-- `elf_wait_source_type_t`. -/
inductive ElfWaitSourceType where
  | socket
  | deviceSubscription
  | audio
  | pointer
  | camera
  | input
  deriving DecidableEq, Repr

/-- `elf_socket_t`. -/
structure ElfSocket where
  platformSocket : Int
  waitSource : Int
  generation : Nat
  isOpen : Bool
  deriving DecidableEq, Repr

/-- `elf_wait_source_t`. -/
structure ElfWaitSource where
  parent : Nat
  generation : Nat
  type : ElfWaitSourceType
  isOpen : Bool
  deriving DecidableEq, Repr

/-- What a socket is cleared to. -/
def ElfSocket.closed (generation : Nat) : ElfSocket where
  platformSocket := 0
  waitSource := 0
  generation := generation
  isOpen := false

/-- What a wait source is cleared to. -/
def ElfWaitSource.closed (generation : Nat) : ElfWaitSource where
  parent := 0
  generation := generation
  type := .socket
  isOpen := false

inductive PlatformCall where
  | opened (platformSocket : Int)
  | closed (platformSocket : Int)
  deriving DecidableEq, Repr

/-- The tables of an application, with the counter that all applications share and the history. -/
structure SocketTables where
  sockets : Fin elfSocketCapacity → ElfSocket
  waitSources : Fin elfWaitSourceCapacity → ElfWaitSource
  nextWaitSourceGeneration : Nat
  platform : List PlatformCall

/-- The tables of an application that was just created. -/
def SocketTables.created (nextWaitSourceGeneration : Nat) : SocketTables where
  sockets := fun _ => .closed 0
  waitSources := fun _ => .closed 0
  nextWaitSourceGeneration := nextWaitSourceGeneration
  platform := []

/-! ## Handles -/

def socketHandle (index : Fin elfSocketCapacity) (generation : Nat) : Int := pack index generation

def waitSourceHandle (index : Fin elfWaitSourceCapacity) (generation : Nat) : Int := pack index generation

def elfSocket (s : SocketTables) (socket : Int) : Option (Fin elfSocketCapacity) :=
  if socket ≤ 0 then none
  else
    let index := slotOf elfSocketCapacity socket.toNat
    let generation := socket.toNat / elfSocketCapacity
    if (s.sockets index).isOpen = false ∨ generation = 0 ∨ (s.sockets index).generation ≠ generation then none else some index

def elfWaitSource (s : SocketTables) (source : Int) : Option (Fin elfWaitSourceCapacity) :=
  if source < 0 then none
  else
    let index := slotOf elfWaitSourceCapacity source.toNat
    let generation := source.toNat / elfWaitSourceCapacity
    if (s.waitSources index).isOpen = false ∨ generation = 0 ∨ (s.waitSources index).generation ≠ generation then none else some index

/-! ## Wait sources -/

def SocketTables.setWaitSource (s : SocketTables) (index : Fin elfWaitSourceCapacity) (source : ElfWaitSource) : SocketTables :=
  { s with waitSources := Function.update s.waitSources index source }

def SocketTables.setSocket (s : SocketTables) (index : Fin elfSocketCapacity) (socket : ElfSocket) : SocketTables :=
  { s with sockets := Function.update s.sockets index socket }

/-- Takes a generation from the counter of all applications: the generation and the next value of the counter. -/
def takeWaitSourceGeneration (next : Nat) : Nat × Nat :=
  if next = 0 ∨ next > elfWaitSourceGenerationMax then (1, 2) else (next, (next + 1) % uint32Limit)

/-- The first wait source that is not open. -/
def freeWaitSource (s : SocketTables) : Option (Fin elfWaitSourceCapacity) :=
  (List.finRange elfWaitSourceCapacity).find? fun index => !(s.waitSources index).isOpen

def elfWaitSourceAllocate (s : SocketTables) (type : ElfWaitSourceType) (parent : Nat) : Int × SocketTables :=
  match freeWaitSource s with
  | none => (waitSourceInvalid, s)
  | some index =>
    let (generation, next) := takeWaitSourceGeneration s.nextWaitSourceGeneration
    (waitSourceHandle index generation,
      { s.setWaitSource index { parent := parent, generation := generation, type := type, isOpen := true } with
        nextWaitSourceGeneration := next })

def elfWaitSourceInvalidate (s : SocketTables) (source : Int) : SocketTables :=
  match elfWaitSource s source with
  | none => s
  | some index => s.setWaitSource index (.closed (s.waitSources index).generation)

def elfWaitSourceFind (s : SocketTables) (type : ElfWaitSourceType) (parent : Nat) : Int :=
  match (List.finRange elfWaitSourceCapacity).find? fun index =>
      (s.waitSources index).isOpen && decide ((s.waitSources index).type = type) && decide ((s.waitSources index).parent = parent) with
  | none => waitSourceInvalid
  | some index => waitSourceHandle index (s.waitSources index).generation

/-! ## Sockets -/

def SocketTables.opened (s : SocketTables) (platformSocket : Int) : SocketTables :=
  { s with platform := .opened platformSocket :: s.platform }

def SocketTables.closed (s : SocketTables) (platformSocket : Int) : SocketTables :=
  { s with platform := .closed platformSocket :: s.platform }

/-- The first socket that is not open. -/
def freeSocket (s : SocketTables) : Option (Fin elfSocketCapacity) :=
  (List.finRange elfSocketCapacity).find? fun index => !(s.sockets index).isOpen

def nextSocketGeneration (generation : Nat) : Nat := if generation + 1 > elfSocketGenerationMax then 1 else generation + 1

def elfSocketAllocate (s : SocketTables) (platformSocket : Int) : Int × SocketTables :=
  match freeSocket s with
  | none => (-emfile, s.closed platformSocket)
  | some index =>
    let generation := nextSocketGeneration (s.sockets index).generation
    let socket := socketHandle index generation
    let (source, allocated) := elfWaitSourceAllocate s .socket socket.toNat
    if source = waitSourceInvalid then (-enfile, allocated.closed platformSocket)
    else
      (socket,
        allocated.setSocket index
          { platformSocket := platformSocket, waitSource := source, generation := generation, isOpen := true })

/-- The argument after the tables is what the platform answers. -/
def elfSocketOpen (s : SocketTables) (platformSocket : Int) : Int × SocketTables :=
  if platformSocket < 0 then (platformSocket, s) else elfSocketAllocate (s.opened platformSocket) platformSocket

/-- `peerReadable` says that there is no address for the peer, or one that can be written. -/
def elfSocketAccept (s : SocketTables) (socket : Int) (peerReadable : Bool) (accepted : Int) : Int × SocketTables :=
  match elfSocket s socket with
  | none => (-ebadf, s)
  | some _ =>
    if peerReadable = false then (-einval, s)
    else if accepted < 0 then (accepted, s)
    else elfSocketAllocate (s.opened accepted) accepted

def elfSocketClose (s : SocketTables) (socket result : Int) : Int × SocketTables :=
  match elfSocket s socket with
  | none => (-ebadf, s)
  | some index =>
    let owned := s.sockets index
    (result,
      ((elfWaitSourceInvalidate s owned.waitSource).closed owned.platformSocket).setSocket index (.closed owned.generation))

/-- The other operations on a socket: `elf_socket_bind`, `elf_socket_get_local_endpoint`, `elf_socket_listen`, `elf_socket_connect`,
`elf_socket_set_nonblocking`, `elf_socket_shutdown`, `elf_socket_send`, `elf_socket_receive`, `elf_socket_send_to` and
`elf_socket_receive_from` differ in the check of their arguments and in the operation of the platform. -/
def elfSocketOperation (s : SocketTables) (socket : Int) (argumentsValid : Bool) (platform : Int → Int) : Int :=
  match elfSocket s socket with
  | none => -ebadf
  | some index => if argumentsValid = false then -einval else platform (s.sockets index).platformSocket

def elfSocketWaitSource (s : SocketTables) (socket : Int) : Int :=
  match elfSocket s socket with
  | none => -ebadf
  | some index => (s.sockets index).waitSource

/-! ## Other resources -/

/-- The resources with a wait source that are not sockets. -/
inductive ElfResource where
  | deviceSubscription
  | audio
  | pointer
  | camera

def ElfResource.type : ElfResource → ElfWaitSourceType
  | .deviceSubscription => .deviceSubscription
  | .audio => .audio
  | .pointer => .pointer
  | .camera => .camera

/-- `elf_device_subscribe`, `elf_audio_open`, `elf_pointer_open` and `elf_camera_open`; `stream` is what the service answers. -/
def elfResourceOpen (s : SocketTables) (resource : ElfResource) (stream : Int) : Int × SocketTables :=
  if stream < 0 then (stream, s)
  else
    let (source, allocated) := elfWaitSourceAllocate s resource.type stream.toNat
    if source = waitSourceInvalid then (-enfile, allocated) else (stream, allocated)

/-- `elf_device_subscription_close`, `elf_audio_close`, `elf_pointer_close` and `elf_camera_close`; `result` is what the service
answers. -/
def elfResourceClose (s : SocketTables) (resource : ElfResource) (stream result : Int) : Int × SocketTables :=
  if result ≠ 0 then (result, s) else (0, elfWaitSourceInvalidate s (elfWaitSourceFind s resource.type stream.toNat))

def elfInputWaitSource (s : SocketTables) (foreground : Bool) : Int × SocketTables :=
  if foreground = false then (-ebadf, s)
  else
    let found := elfWaitSourceFind s .input 0
    if found ≠ waitSourceInvalid then (found, s)
    else
      let (source, allocated) := elfWaitSourceAllocate s .input 0
      (if source = waitSourceInvalid then -emfile else source, allocated)

/-! ## Runs -/

inductive SocketOperation where
  | open (platformSocket : Int)
  | accept (socket : Int) (peerReadable : Bool) (accepted : Int)
  | close (socket result : Int)
  | resourceOpen (resource : ElfResource) (stream : Int)
  | resourceClose (resource : ElfResource) (stream result : Int)
  | inputWaitSource (foreground : Bool)
  /-- Another application takes generations of wait sources. -/
  | elsewhere (nextWaitSourceGeneration : Nat)

def socketStep (s : SocketTables) : SocketOperation → SocketTables
  | .open platformSocket => (elfSocketOpen s platformSocket).2
  | .accept socket peerReadable accepted => (elfSocketAccept s socket peerReadable accepted).2
  | .close socket result => (elfSocketClose s socket result).2
  | .resourceOpen resource stream => (elfResourceOpen s resource stream).2
  | .resourceClose resource stream result => (elfResourceClose s resource stream result).2
  | .inputWaitSource foreground => (elfInputWaitSource s foreground).2
  | .elsewhere nextWaitSourceGeneration => { s with nextWaitSourceGeneration := nextWaitSourceGeneration }

def socketRun (s : SocketTables) (operations : List SocketOperation) : SocketTables := operations.foldl socketStep s

end Application
end TabOS
