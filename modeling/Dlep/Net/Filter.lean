-- SUMMARY: The kernel filter of the TCP monitor: it keeps the packets with a low hop limit, and with them every violation.
import Dlep.Lib.Bpf
import Dlep.Net.Monitor

/-!
# The kernel filter

`filter_low_ttl` of `tcp_monitor.rs` installs a program that drops conforming
traffic in the kernel. It looks at the version and at one byte of the header. What
the inspection of `low_ttl_connection` reports is among the packets that it keeps.
-/

namespace Dlep

variable {packet : List UInt8}

open Bpf

/-- The program of `filter_low_ttl`. -/
def filterLowTtl : List SockFilter := [
  ⟨LD ||| B ||| ABS, 0, 0, 0⟩,
  ⟨ALU ||| AND ||| K, 0, 0, 0xf0⟩,
  ⟨JMP ||| JEQ ||| K, 0, 3, 0x40⟩,
  ⟨LD ||| B ||| ABS, 0, 0, 8⟩,
  ⟨JMP ||| JEQ ||| K, 5, 0, 255⟩,
  ⟨RET ||| K, 0, 0, 65536⟩,
  ⟨JMP ||| JEQ ||| K, 0, 3, 0x60⟩,
  ⟨LD ||| B ||| ABS, 0, 0, 7⟩,
  ⟨JMP ||| JEQ ||| K, 1, 0, 255⟩,
  ⟨RET ||| K, 0, 0, 65536⟩,
  ⟨RET ||| K, 0, 0, 0⟩]

/-- A packet of an IP version with a hop limit other than 255 at its place. -/
def LowHopLimit (packet : List UInt8) (version : UInt8) (i : ℕ) : Prop :=
  (∃ first : UInt8, packet[0]? = some first ∧ first >>> 4 = version) ∧
    ∃ limit : UInt8, packet[i]? = some limit ∧ limit ≠ 255

theorem masked_eq_iff {b version : UInt8} {m : UInt32} (hversion : m.toNat = version.toNat * 16) :
    b.toUInt32 &&& 0xf0 = m ↔ b >>> 4 = version := by
  have hb := b.toNat_lt
  have hmask : b.toNat &&& 0xf0 = b.toNat / 2 ^ 4 * 2 ^ 4 := @and_high_mask b.toNat 4 4 hb
  rw [← UInt32.toNat_inj, ← UInt8.toNat_inj, UInt32.toNat_and, UInt8.toNat_toUInt32, hversion,
    UInt8.toNat_shiftRight, Nat.shiftRight_eq_div_pow]
  change b.toNat &&& 0xf0 = _ ↔ b.toNat / 2 ^ 4 = _
  omega

theorem toUInt32_eq_255_iff {b : UInt8} : b.toUInt32 = 255 ↔ b = 255 := by
  rw [← UInt32.toNat_inj, ← UInt8.toNat_inj, UInt8.toNat_toUInt32]
  rfl

/-- The half of the program for one version of IP. -/
theorem exec_version {a i : UInt32} {jt : UInt8} {rest : List SockFilter}
    (hdrop : exec packet jt.toNat 255 (⟨RET ||| K, 0, 0, 65536⟩ :: rest) = 0) :
    (exec packet 0 a (⟨LD ||| B ||| ABS, 0, 0, i⟩ :: ⟨JMP ||| JEQ ||| K, jt, 0, 255⟩ ::
      ⟨RET ||| K, 0, 0, 65536⟩ :: rest) = 65536 ∧
        ∃ limit, packet[i.toNat]? = some limit ∧ limit ≠ 255) ∨
    (exec packet 0 a (⟨LD ||| B ||| ABS, 0, 0, i⟩ :: ⟨JMP ||| JEQ ||| K, jt, 0, 255⟩ ::
      ⟨RET ||| K, 0, 0, 65536⟩ :: rest) = 0 ∧
        ¬ ∃ limit, packet[i.toNat]? = some limit ∧ limit ≠ 255) := by
  cases hlimit : packet[i.toNat]? with
  | none =>
    refine .inr ⟨exec_load_none hlimit, ?_⟩
    rintro ⟨limit, h, -⟩
    cases h
  | some limit =>
    rw [exec_load_some hlimit]
    by_cases h : limit = 255
    · subst h
      refine .inr ⟨?_, ?_⟩
      · exact (exec_jump_eq rfl).trans hdrop
      · rintro ⟨_, hsome, hne⟩
        exact hne (Option.some.inj hsome).symm
    · refine .inl ⟨?_, limit, rfl, h⟩
      rw [exec_jump_ne fun h' => h (toUInt32_eq_255_iff.mp h')]
      rfl

theorem lowHopLimit_version {version first : UInt8} {i : ℕ} (hfirst : packet[0]? = some first)
    (h : LowHopLimit packet version i) : first >>> 4 = version := by
  obtain ⟨⟨first', hfirst', hversion⟩, -⟩ := h
  cases hfirst.symm.trans hfirst'
  exact hversion

theorem exec_skip_three {a : UInt32} {x y z : SockFilter} {rest : List SockFilter} :
    exec packet (UInt8.toNat 3) a (x :: y :: z :: rest) = exec packet 0 a rest := rfl

theorem filter_cases (packet : List UInt8) :
    (run filterLowTtl packet = 65536 ∧ (LowHopLimit packet 4 8 ∨ LowHopLimit packet 6 7)) ∨
    (run filterLowTtl packet = 0 ∧ ¬ (LowHopLimit packet 4 8 ∨ LowHopLimit packet 6 7)) := by
  unfold run filterLowTtl
  cases hfirst : packet[0]? with
  | none =>
    refine .inr ⟨exec_load_none hfirst, ?_⟩
    rintro (⟨⟨first, h, -⟩, -⟩ | ⟨⟨first, h, -⟩, -⟩)
    · cases hfirst.symm.trans h
    · cases hfirst.symm.trans h
  | some first =>
    rw [exec_load_some hfirst, exec_and]
    by_cases hv4 : first >>> 4 = 4
    · rw [exec_jump_eq ((masked_eq_iff rfl).mpr hv4)]
      rcases @exec_version packet (first.toUInt32 &&& 0xf0) 8 5 (filterLowTtl.drop 6) rfl with
        ⟨hrun, hlimit⟩ | ⟨hrun, hlimit⟩
      · exact .inl ⟨hrun, .inl ⟨⟨first, hfirst, hv4⟩, hlimit⟩⟩
      · refine .inr ⟨hrun, ?_⟩
        rintro (h | h)
        · exact hlimit h.2
        · exact absurd (hv4.symm.trans (lowHopLimit_version hfirst h)) (by decide)
    · rw [exec_jump_ne fun h => hv4 ((masked_eq_iff rfl).mp h), exec_skip_three]
      by_cases hv6 : first >>> 4 = 6
      · rw [exec_jump_eq ((masked_eq_iff rfl).mpr hv6)]
        rcases @exec_version packet (first.toUInt32 &&& 0xf0) 7 1 (filterLowTtl.drop 10) rfl with
          ⟨hrun, hlimit⟩ | ⟨hrun, hlimit⟩
        · exact .inl ⟨hrun, .inr ⟨⟨first, hfirst, hv6⟩, hlimit⟩⟩
        · refine .inr ⟨hrun, ?_⟩
          rintro (h | h)
          · exact hv4 (lowHopLimit_version hfirst h)
          · exact hlimit h.2
      · rw [exec_jump_ne fun h => hv6 ((masked_eq_iff rfl).mp h), exec_skip_three]
        refine .inr ⟨exec_ret, ?_⟩
        rintro (h | h)
        · exact hv4 (lowHopLimit_version hfirst h)
        · exact hv6 (lowHopLimit_version hfirst h)

theorem getElem?_of_getD {xs : List UInt8} {i : ℕ} (h : i < xs.length) :
    xs[i]? = some (xs.getD i 0) := by
  simp [h]

/-- What the inspection reports has a low hop limit at the place where the filter looks. -/
theorem lowHopLimit_of_lowTtl {interface : UInt32} {c : Connection}
    (h : lowTtlConnection packet interface = .ok c) :
    LowHopLimit packet 4 8 ∨ LowHopLimit packet 6 7 := by
  obtain ⟨source, dest, offset, hlocated, -, -⟩ := lowTtlConnection_eq_ok.mp h
  cases hlocated with
  | v4 hversion hfields =>
    have hfixed := hfields.fixed
    exact .inl ⟨⟨_, getElem?_of_getD (by omega), hversion⟩,
      _, getElem?_of_getD (by omega), hfields.ttl⟩
  | v6 hversion hfields =>
    have hfixed := hfields.fixed
    exact .inr ⟨⟨_, getElem?_of_getD (by omega), hversion⟩,
      _, getElem?_of_getD (by omega), hfields.hopLimit⟩

/-- The kernel keeps every packet that the inspection reports; it keeps those with a low hop limit
and drops all others. -/
theorem filter_keeps_violations (packet : List UInt8) :
    (∀ interface c, lowTtlConnection packet interface = .ok c →
      run filterLowTtl packet = 65536) ∧
    (run filterLowTtl packet = 65536 ↔ LowHopLimit packet 4 8 ∨ LowHopLimit packet 6 7) ∧
    (¬ (LowHopLimit packet 4 8 ∨ LowHopLimit packet 6 7) → run filterLowTtl packet = 0) := by
  rcases filter_cases packet with ⟨hrun, hlow⟩ | ⟨hrun, hhigh⟩
  · exact ⟨fun _ _ _ => hrun, iff_of_true hrun hlow, fun h => absurd hlow h⟩
  · refine ⟨fun interface c h => absurd (lowHopLimit_of_lowTtl h) hhigh, ?_, fun _ => hrun⟩
    refine iff_of_false (fun h => ?_) hhigh
    cases hrun.symm.trans h

end Dlep
