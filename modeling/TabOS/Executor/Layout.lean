import Mathlib.Algebra.Ring.Nat
import Mathlib.Data.List.Basic

/-!
# Guest memory of the host executor

`platform_riscv32_create` computes where the image, the table of the services, the arguments, the heap and the stack lie before it
allocates the memory. The additions of `size_t` that can overflow are taken modulo its size.
-/

namespace TabOS
namespace Executor

/-- `HOST_RV32_MAX_RAM_SIZE`. -/
def maxRamSize : Nat := 24 * 1024 * 1024

/-- `HOST_RV32_GUARD_BYTES`. -/
def guardBytes : Nat := 4 * 1024

/-- `TABOS_ELF_ARG_MAX`. -/
def elfArgMax : Nat := 16

/-- `TABOS_ELF_ARG_BYTES_MAX`. -/
def elfArgBytesMax : Nat := 512

/-- `host_rv32_api_size`: the table of the services ends behind the one with the last offset. -/
def apiSize : Nat := 424 + 4

def uint32Max : Nat := 0xffffffff

/-- The values below which a `size_t` lies. -/
def sizeLimit : Nat := 0x10000000000000000

/-- The next multiple of a power of two that is not below the address. -/
def alignUp (address alignment : Nat) : Nat := (address + (alignment - 1)) / alignment * alignment

/-- Where the parts of the guest memory lie. -/
structure GuestLayout where
  apiAddress : Nat
  argumentDataAddress : Nat
  argvAddress : Nat
  heapBase : Nat
  heapEnd : Nat
  stackBase : Nat
  ramSize : Nat
  deriving DecidableEq, Repr

/-- The end of the argument strings: the loop over the arguments, of which the first `address` ends where the strings begin. -/
def argumentDataEnd (argumentDataAddress : Nat) : Nat → List (Option (List UInt8)) → Option Nat
  | address, [] => some address
  | _, none :: _ => none
  | address, some argument :: arguments =>
    let length := argument.length + 1
    let used := address - argumentDataAddress
    if used > elfArgBytesMax ∨ length > elfArgBytesMax - used ∨ address > maxRamSize - length then none
    else argumentDataEnd argumentDataAddress (address + length) arguments

/-- The addresses that `platform_riscv32_create` computes, unless it fails; the context, the memory and the services are there. -/
def guestLayout (entryOffset memorySize minimumAddress heapBytes stackBytes : Nat) (arguments : List (Option (List UInt8))) :
    Option GuestLayout :=
  if memorySize = 0 ∨ arguments.length > elfArgMax ∨ heapBytes = 0 ∨ stackBytes = 0 ∨ memorySize > uint32Max ∨
      minimumAddress > uint32Max - memorySize ∨ entryOffset ≥ memorySize then none
  else
    let imageEnd := minimumAddress + memorySize
    let apiAddress := alignUp imageEnd 16
    if apiAddress > maxRamSize ∨ apiSize > maxRamSize - apiAddress then none
    else
      let argumentDataAddress := apiAddress + apiSize
      match argumentDataEnd argumentDataAddress argumentDataAddress arguments with
      | none => none
      | some argumentDataEnd =>
        let argvAddress := alignUp argumentDataEnd 4
        let argvSize := (arguments.length + 1) * 4
        if argvSize > maxRamSize ∨ argvAddress > maxRamSize - argvSize then none
        else
          let heapBase := alignUp (argvAddress + argvSize) 16
          let heapEnd := (heapBase + heapBytes) % sizeLimit
          let stackBase := (heapEnd + guardBytes) % sizeLimit
          let ramSize := (stackBase + stackBytes) % sizeLimit
          if heapEnd < heapBase ∨ stackBase < heapEnd ∨ ramSize < stackBase ∨ ramSize > maxRamSize ∨ ramSize > uint32Max then none
          else
            some { apiAddress := apiAddress, argumentDataAddress := argumentDataAddress, argvAddress := argvAddress, heapBase := heapBase,
                   heapEnd := heapEnd, stackBase := stackBase, ramSize := ramSize }

/-- The memory has the guard and no more than the limit. -/
theorem guestLayout_ramSize {entryOffset memorySize minimumAddress heapBytes stackBytes : Nat} {arguments : List (Option (List UInt8))}
    {layout : GuestLayout} (h : guestLayout entryOffset memorySize minimumAddress heapBytes stackBytes arguments = some layout) :
    guardBytes ≤ layout.ramSize ∧ layout.ramSize ≤ maxRamSize := by
  unfold guestLayout at h
  dsimp only at h
  split at h
  · cases h
  split at h
  · cases h
  split at h
  · cases h
  split at h
  · cases h
  split at h
  · cases h
  next hbounds =>
  obtain rfl := Option.some.inj h
  dsimp only
  unfold guardBytes sizeLimit at hbounds ⊢
  omega

end Executor
end TabOS
