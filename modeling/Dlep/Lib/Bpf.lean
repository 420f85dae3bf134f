-- SUMMARY: Classic BPF: instructions as the kernel gets them, and what a program returns for a packet.
import Mathlib.Data.Nat.Notation
import Mathlib.Data.List.Basic

/-!
# Classic BPF

A program is a list of instructions over an accumulator. Jumps go forward and are
relative to the next instruction. A program ends with the number of bytes of the
packet to keep, and a load outside the packet ends it with none. The part of the
instruction set that is here is what packet filters on single bytes need.
-/

namespace Bpf

def LD : UInt16 := 0x00
def ALU : UInt16 := 0x04
def JMP : UInt16 := 0x05
def RET : UInt16 := 0x06
def B : UInt16 := 0x10
def ABS : UInt16 := 0x20
def AND : UInt16 := 0x50
def JEQ : UInt16 := 0x10
def K : UInt16 := 0x00

/-- `struct sock_filter`. -/
structure SockFilter where
  code : UInt16
  jt : UInt8
  jf : UInt8
  k : UInt32
  deriving DecidableEq, Repr

inductive Instruction where
  | loadByte (k : UInt32)
  | and (k : UInt32)
  | jumpEq (k : UInt32) (jt jf : UInt8)
  | ret (k : UInt32)
  deriving DecidableEq, Repr

def SockFilter.decode (ins : SockFilter) : Option Instruction :=
  if ins.code = LD ||| B ||| ABS then some (.loadByte ins.k)
  else if ins.code = ALU ||| AND ||| K then some (.and ins.k)
  else if ins.code = JMP ||| JEQ ||| K then some (.jumpEq ins.k ins.jt ins.jf)
  else if ins.code = RET ||| K then some (.ret ins.k)
  else none

/-- Run a program after `skip` of its instructions, with the accumulator `a`. -/
def exec (packet : List UInt8) : ℕ → UInt32 → List SockFilter → UInt32
  | _, _, [] => 0
  | skip + 1, a, _ :: program => exec packet skip a program
  | 0, a, ins :: program =>
    match ins.decode with
    | some (.loadByte k) =>
      match packet[k.toNat]? with
      | some b => exec packet 0 b.toUInt32 program
      | none => 0
    | some (.and k) => exec packet 0 (a &&& k) program
    | some (.jumpEq k jt jf) => exec packet (if a = k then jt else jf).toNat a program
    | some (.ret k) => k
    -- The kernel does not install such a program.
    | none => 0

/-- What a program returns for a packet. -/
def run (program : List SockFilter) (packet : List UInt8) : UInt32 := exec packet 0 0 program

variable {packet : List UInt8} {program : List SockFilter} {a k : UInt32} {jt jf : UInt8}

@[simp] theorem exec_skip (skip : ℕ) (ins : SockFilter) :
    exec packet (skip + 1) a (ins :: program) = exec packet skip a program := rfl

theorem exec_load_some {b : UInt8} (h : packet[k.toNat]? = some b) :
    exec packet 0 a (⟨LD ||| B ||| ABS, jt, jf, k⟩ :: program) =
      exec packet 0 b.toUInt32 program := by
  change (match packet[k.toNat]? with
    | some b => exec packet 0 b.toUInt32 program
    | none => 0) = _
  rw [h]

theorem exec_load_none (h : packet[k.toNat]? = none) :
    exec packet 0 a (⟨LD ||| B ||| ABS, jt, jf, k⟩ :: program) = 0 := by
  change (match packet[k.toNat]? with
    | some b => exec packet 0 b.toUInt32 program
    | none => 0) = _
  rw [h]

@[simp] theorem exec_and :
    exec packet 0 a (⟨ALU ||| AND ||| K, jt, jf, k⟩ :: program) =
      exec packet 0 (a &&& k) program := rfl

theorem exec_jump_eq (h : a = k) :
    exec packet 0 a (⟨JMP ||| JEQ ||| K, jt, jf, k⟩ :: program) =
      exec packet jt.toNat a program := by
  change exec packet (if a = k then jt else jf).toNat a program = _
  rw [if_pos h]

theorem exec_jump_ne (h : a ≠ k) :
    exec packet 0 a (⟨JMP ||| JEQ ||| K, jt, jf, k⟩ :: program) =
      exec packet jf.toNat a program := by
  change exec packet (if a = k then jt else jf).toNat a program = _
  rw [if_neg h]

@[simp] theorem exec_ret :
    exec packet 0 a (⟨RET ||| K, jt, jf, k⟩ :: program) = k := rfl

end Bpf
