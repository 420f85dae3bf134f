-- SUMMARY: MAC addresses as text: what the adapter may write for one, and that a displayed address is read back.
import Mathlib.Algebra.GroupWithZero.Nat
import Dlep.Core.Types
import Mathlib.Data.List.Forall2

/-!
# MAC addresses as text

`Mac::try_from` of `radio.rs` and the `Display` of `mac.rs`. A text is split at its
colons and each part of one or two bytes is read by `u8::from_str_radix`. That function
reads an optional plus sign and digits, so a part of two bytes can also be a plus sign and
one digit.
-/

namespace Dlep

variable {groups : List (List Char)} {text : String} {part : List Char} {c : Char} {b : UInt8}
  {x : ℕ}

/-! ## Reading a number -/

/-- `char::to_digit`. -/
def toDigit (radix : ℕ) (c : Char) : Option ℕ :=
  let digit :=
    if '0' ≤ c ∧ c ≤ '9' then some (c.toNat - '0'.toNat)
    else if 'a' ≤ c ∧ c ≤ 'z' then some (c.toNat - 'a'.toNat + 10)
    else if 'A' ≤ c ∧ c ≤ 'Z' then some (c.toNat - 'A'.toNat + 10)
    else none
  digit.filter (· < radix)

/-- The digits of a number, each checked for overflow. -/
def readDigits (radix : ℕ) : ℕ → List Char → Option ℕ
  | result, [] => some result
  | result, c :: digits => do
    let digit ← toDigit radix c
    if result * radix + digit < 256 then readDigits radix (result * radix + digit) digits else none

/-- `u8::from_str_radix`. -/
def u8FromStrRadix (radix : ℕ) : List Char → Option UInt8
  | [] => none
  | ['+'] => none
  | '+' :: digits => (readDigits radix 0 digits).map UInt8.ofNat
  | digits => (readDigits radix 0 digits).map UInt8.ofNat

/-! ## The adapter's text -/

inductive MacTextError where
  | invalid (text : String)
  | octets (text : String)
  deriving DecidableEq, Repr

/-- `str::len`, in bytes. -/
def utf8Len (part : List Char) : ℕ := (part.map Char.utf8Size).sum

/-- One part of the text. -/
def octetOf (part : List Char) : Option UInt8 :=
  match utf8Len part with
  | 1 | 2 => u8FromStrRadix 16 part
  | _ => none

/-- `Mac::try_from`. -/
def macTryFrom (text : String) : Except MacTextError MacAddress :=
  match (List.splitOn ':' text.toList).mapM octetOf with
  | none => .error (.invalid text)
  | some octets =>
    if h : octets.length = 6 then .ok (.eui48 ⟨octets.toArray, h⟩)
    else if h : octets.length = 8 then .ok (.eui64 ⟨octets.toArray, h⟩)
    else .error (.octets text)

/-! ## The displayed text -/

/-- The format `02x`. -/
def lowerHex (b : UInt8) : List Char :=
  [Nat.digitChar (b.toNat / 16), Nat.digitChar (b.toNat % 16)]

/-- The loop of `fmt`. -/
def writeOctets : Bool → List UInt8 → List Char
  | _, [] => []
  | first, b :: octets => (if first then [] else [':']) ++ lowerHex b ++ writeOctets false octets

/-- The `Display` of a MAC address. -/
def MacAddress.toText (mac : MacAddress) : String := String.ofList (writeOctets true mac.asBytes)

example : (MacAddress.eui48 #v[0, 1, 0x2a, 0xbc, 0xff, 9]).toText = "00:01:2a:bc:ff:09" := by decide

/-! ## Hexadecimal groups -/

/-- A hexadecimal digit and its value. -/
def HexDigit (c : Char) (x : ℕ) : Prop :=
  "0123456789abcdef".toList[x]? = some c ∨ "0123456789ABCDEF".toList[x]? = some c

instance (c : Char) (x : ℕ) : Decidable (HexDigit c x) := inferInstanceAs (Decidable (_ ∨ _))

/-- One or two hexadecimal digits and their value. -/
inductive HexGroup : List Char → UInt8 → Prop
  | one {a : Char} {x : ℕ} (ha : HexDigit a x) : HexGroup [a] (UInt8.ofNat x)
  | two {a b : Char} {x y : ℕ} (ha : HexDigit a x) (hb : HexDigit b y) :
      HexGroup [a, b] (UInt8.ofNat (16 * x + y))

/-- A plus sign and one hexadecimal digit. -/
inductive SignedGroup : List Char → UInt8 → Prop
  | mk {a : Char} {x : ℕ} (ha : HexDigit a x) : SignedGroup ['+', a] (UInt8.ofNat x)

theorem HexDigit.lt (h : HexDigit c x) : x < 16 := by
  rcases h with h | h
  · exact (List.getElem?_eq_some_iff.mp h).1
  · exact (List.getElem?_eq_some_iff.mp h).1

theorem hexDigit_decimal : ∀ x < 10, HexDigit (Char.ofNat (48 + x)) x := by decide

theorem hexDigit_lower : ∀ x < 6, HexDigit (Char.ofNat (97 + x)) (x + 10) := by decide

theorem hexDigit_upper : ∀ x < 6, HexDigit (Char.ofNat (65 + x)) (x + 10) := by decide

theorem digit_table_lower : ∀ x < 16, ("0123456789abcdef".toList[x]?).map
    (fun c => (toDigit 16 c, c.utf8Size)) = some (some x, 1) := by decide

theorem digit_table_upper : ∀ x < 16, ("0123456789ABCDEF".toList[x]?).map
    (fun c => (toDigit 16 c, c.utf8Size)) = some (some x, 1) := by decide

theorem HexDigit.read (h : HexDigit c x) : toDigit 16 c = some x ∧ c.utf8Size = 1 := by
  have hlt := h.lt
  rcases h with h | h
  · have hread := digit_table_lower x hlt
    rw [h, Option.map_some] at hread
    exact Prod.mk.inj (Option.some.inj hread)
  · have hread := digit_table_upper x hlt
    rw [h, Option.map_some] at hread
    exact Prod.mk.inj (Option.some.inj hread)

theorem hexDigit_of_toDigit (h : toDigit 16 c = some x) : HexDigit c x := by
  obtain ⟨h, hlt⟩ := Option.filter_eq_some_iff.mp h
  have hlt : x < 16 := of_decide_eq_true hlt
  split at h
  · rename_i hrange
    obtain ⟨hlow, hhigh⟩ : 48 ≤ c.toNat ∧ c.toNat ≤ 57 := hrange
    have hx : c.toNat - 48 = x := Option.some.inj h
    have hdigit := hexDigit_decimal x (by omega)
    rwa [← hx, Nat.add_sub_cancel' hlow, Char.ofNat_toNat, hx] at hdigit
  · split at h
    · rename_i hrange
      have hlow : 97 ≤ c.toNat := hrange.1
      have hx : c.toNat - 97 + 10 = x := Option.some.inj h
      have hdigit := hexDigit_lower (c.toNat - 97) (by omega)
      rwa [Nat.add_sub_cancel' hlow, Char.ofNat_toNat, hx] at hdigit
    · split at h
      · rename_i hrange
        have hlow : 65 ≤ c.toNat := hrange.1
        have hx : c.toNat - 65 + 10 = x := Option.some.inj h
        have hdigit := hexDigit_upper (c.toNat - 65) (by omega)
        rwa [Nat.add_sub_cancel' hlow, Char.ofNat_toNat, hx] at hdigit
      · cases h

theorem toDigit_iff : toDigit 16 c = some x ↔ HexDigit c x :=
  ⟨hexDigit_of_toDigit, fun h => h.read.1⟩

theorem HexDigit.ne_plus (h : HexDigit c x) : c ≠ '+' := by
  rintro rfl
  cases h.read.1

theorem HexDigit.ne_colon (h : HexDigit c x) : c ≠ ':' := by
  rintro rfl
  cases h.read.1

/-! ## One group -/

theorem readDigits_one (a : Char) : readDigits 16 0 [a] = toDigit 16 a := by
  cases ha : toDigit 16 a with
  | none => simp [readDigits, ha]
  | some x =>
    have hx := (toDigit_iff.mp ha).lt
    simp [readDigits, ha, show x < 256 by omega]

theorem readDigits_two {a b : Char} {x y : ℕ} (ha : HexDigit a x) (hb : HexDigit b y) :
    readDigits 16 0 [a, b] = some (16 * x + y) := by
  have hx := ha.lt
  have hy := hb.lt
  simp [readDigits, ha.read.1, hb.read.1, show x < 256 by omega, show x * 16 + y < 256 by omega,
    Nat.mul_comm]

theorem hexDigits_of_readDigits {a b : Char} {n : ℕ} (h : readDigits 16 0 [a, b] = some n) :
    ∃ x y, HexDigit a x ∧ HexDigit b y := by
  cases ha : toDigit 16 a with
  | none => simp [readDigits, ha] at h
  | some x =>
    cases hb : toDigit 16 b with
    | none => simp [readDigits, ha, hb] at h
    | some y => exact ⟨x, y, toDigit_iff.mp ha, toDigit_iff.mp hb⟩

theorem length_le_utf8Len (part : List Char) : part.length ≤ utf8Len part := by
  induction part with
  | nil => exact le_rfl
  | cons c part ih =>
    have hc := Char.utf8Size_pos c
    simp only [utf8Len, List.map_cons, List.sum_cons, List.length_cons] at ih ⊢
    omega

theorem octetOf_eq_some :
    octetOf part = some b ↔
      (utf8Len part = 1 ∨ utf8Len part = 2) ∧ u8FromStrRadix 16 part = some b := by
  unfold octetOf
  split
  · simp_all
  · simp_all
  · simp_all

theorem u8FromStrRadix_of_ne_plus {a : Char} {digits : List Char} (h : a ≠ '+') :
    u8FromStrRadix 16 (a :: digits) = (readDigits 16 0 (a :: digits)).map UInt8.ofNat := by
  unfold u8FromStrRadix
  split
  · cases ‹a :: digits = []›
  · cases ‹a :: digits = ['+']›
    exact absurd rfl h
  · cases ‹a :: digits = _ :: _›
    exact absurd rfl h
  · rfl

theorem octetOf_of_hexGroup (h : HexGroup part b) : octetOf part = some b := by
  cases h with
  | one ha =>
    refine octetOf_eq_some.mpr ⟨.inl (by simp [utf8Len, ha.read.2]), ?_⟩
    rw [u8FromStrRadix_of_ne_plus ha.ne_plus, readDigits_one, ha.read.1]
    rfl
  | two ha hb =>
    refine octetOf_eq_some.mpr ⟨.inr (by simp [utf8Len, ha.read.2, hb.read.2]), ?_⟩
    rw [u8FromStrRadix_of_ne_plus ha.ne_plus, readDigits_two ha hb]
    rfl

theorem octetOf_of_signedGroup (h : SignedGroup part b) : octetOf part = some b := by
  cases h with
  | mk ha =>
    refine octetOf_eq_some.mpr ⟨.inr ?_, ?_⟩
    · simp only [utf8Len, List.map_cons, List.map_nil, List.sum_cons, List.sum_nil, ha.read.2]
      rfl
    · change (readDigits 16 0 [_]).map UInt8.ofNat = _
      rw [readDigits_one, ha.read.1]
      rfl

/-- A part that is read is a group of digits, or a digit after a plus sign. -/
theorem hexGroup_of_octetOf (h : octetOf part = some b) : HexGroup part b ∨ SignedGroup part b := by
  obtain ⟨hlen, hread⟩ := octetOf_eq_some.mp h
  have hshort : part.length ≤ 2 := (length_le_utf8Len part).trans (by omega)
  match part, hshort with
  | [], _ => cases hread
  | [a], _ =>
    have hplus : a ≠ '+' := by
      rintro rfl
      cases hread
    rw [u8FromStrRadix_of_ne_plus hplus, readDigits_one] at hread
    obtain ⟨x, hx, rfl⟩ := Option.map_eq_some_iff.mp hread
    exact .inl (.one (toDigit_iff.mp hx))
  | [a, c], _ =>
    by_cases hplus : a = '+'
    · subst hplus
      change (readDigits 16 0 [c]).map UInt8.ofNat = some b at hread
      rw [readDigits_one] at hread
      obtain ⟨x, hx, rfl⟩ := Option.map_eq_some_iff.mp hread
      exact .inr (.mk (toDigit_iff.mp hx))
    · rw [u8FromStrRadix_of_ne_plus hplus] at hread
      obtain ⟨n, hn, rfl⟩ := Option.map_eq_some_iff.mp hread
      obtain ⟨x, y, ha, hc⟩ := hexDigits_of_readDigits hn
      obtain rfl : 16 * x + y = n := Option.some.inj ((readDigits_two ha hc).symm.trans hn)
      exact .inl (.two ha hc)

/-! ## Whole texts -/

theorem mapM_eq_some_iff {α β : Type} {f : α → Option β} {l : List α} {r : List β} :
    l.mapM f = some r ↔ List.Forall₂ (fun a b => f a = some b) l r := by
  induction l generalizing r with
  | nil => simp [eq_comm]
  | cons a l ih =>
    cases r with
    | nil => simp [List.mapM_cons, Option.bind_eq_some_iff]
    | cons b r => simp [List.mapM_cons, Option.bind_eq_some_iff, ih]

theorem macTryFrom_eq_ok {mac : MacAddress} :
    macTryFrom text = .ok mac ↔
      List.Forall₂ (fun part b => octetOf part = some b) (List.splitOn ':' text.toList)
        mac.asBytes := by
  rw [← mapM_eq_some_iff]
  unfold macTryFrom
  split
  · rename_i hparts
    simp [hparts]
  · rename_i octets hparts
    rw [hparts, Option.some.injEq]
    split
    · rename_i hlen
      cases mac with
      | eui48 o => simp [MacAddress.asBytes, ← Vector.toList_inj, Vector.toList]
      | eui64 o =>
        refine iff_of_false (by simp) fun heq => ?_
        simp [heq, MacAddress.asBytes] at hlen
    · rename_i hlen
      split
      · rename_i hlen'
        cases mac with
        | eui48 o =>
          refine iff_of_false (by simp) fun heq => ?_
          simp [heq, MacAddress.asBytes] at hlen'
        | eui64 o => simp [MacAddress.asBytes, ← Vector.toList_inj, Vector.toList]
      · rename_i hlen'
        refine iff_of_false (by simp) fun heq => ?_
        cases mac with
        | eui48 o => simp [heq, MacAddress.asBytes] at hlen
        | eui64 o => simp [heq, MacAddress.asBytes] at hlen'

theorem HexGroup.colon_notMem {group : List Char} (h : HexGroup group b) : ':' ∉ group := by
  cases h with
  | one ha => simpa using ha.ne_colon.symm
  | two ha hb => simpa using ⟨ha.ne_colon.symm, hb.ne_colon.symm⟩

theorem forall_exists_of_forall₂ {α β : Type} {R : α → β → Prop} {l : List α} {r : List β}
    (h : List.Forall₂ R l r) : ∀ a ∈ l, ∃ b, R a b := by
  induction h with
  | nil => exact List.forall_mem_nil _
  | cons hb _ ih => exact List.forall_mem_cons.mpr ⟨⟨_, hb⟩, ih⟩

/-- The groups of a text are the parts it is split into. -/
theorem splitOn_groups (hne : groups ≠ []) (h : ∀ group ∈ groups, ∃ b, HexGroup group b) :
    List.splitOn ':' ([':'].intercalate groups) = groups := by
  refine List.splitOn_intercalate ':' (fun group hgroup => ?_) hne
  obtain ⟨b, hb⟩ := h group hgroup
  exact hb.colon_notMem

theorem asBytes_ne_nil (mac : MacAddress) : mac.asBytes ≠ [] := by
  intro h
  have hlen := mac.length_asBytes
  rw [h] at hlen
  cases mac <;> cases hlen

/-- A text of as many groups as an address has octets is read as that address. -/
theorem macTryFrom_of_groups {mac : MacAddress} (htext : text.toList = [':'].intercalate groups)
    (hgroups : List.Forall₂ HexGroup groups mac.asBytes) : macTryFrom text = .ok mac := by
  have hne : groups ≠ [] := by
    rintro rfl
    exact asBytes_ne_nil mac (List.forall₂_nil_left_iff.mp hgroups)
  rw [macTryFrom_eq_ok, htext, splitOn_groups hne (forall_exists_of_forall₂ hgroups)]
  exact hgroups.imp fun _ _ => octetOf_of_hexGroup

theorem writeOctets_eq (octets : List UInt8) :
    writeOctets true octets = [':'].intercalate (octets.map lowerHex) := by
  have hrest : ∀ b octets, lowerHex b ++ writeOctets false octets =
      [':'].intercalate ((b :: octets).map lowerHex) := by
    intro b octets
    induction octets generalizing b with
    | nil => simp [writeOctets, List.intercalate]
    | cons c octets ih =>
      have h := ih c
      simp only [writeOctets, List.map_cons, List.intercalate] at h ⊢
      simp [h]
  cases octets with
  | nil => rfl
  | cons b octets => exact hrest b octets

theorem hexDigit_digitChar : ∀ x < 16, HexDigit (Nat.digitChar x) x := by decide

theorem hexGroup_lowerHex (b : UInt8) : HexGroup (lowerHex b) b := by
  have hb : b.toNat < 256 := b.toNat_lt
  have hgroup := HexGroup.two (hexDigit_digitChar (b.toNat / 16) (by omega))
    (hexDigit_digitChar (b.toNat % 16) (by omega))
  rwa [Nat.div_add_mod, UInt8.ofNat_toNat] at hgroup

theorem exists_octets {R : List Char → UInt8 → Prop} (h : ∀ group ∈ groups, ∃ b, R group b) :
    ∃ octets, List.Forall₂ R groups octets := by
  induction groups with
  | nil => exact ⟨[], .nil⟩
  | cons group groups ih =>
    obtain ⟨⟨b, hb⟩, hrest⟩ := List.forall_mem_cons.mp h
    obtain ⟨octets, hoctets⟩ := ih hrest
    exact ⟨b :: octets, .cons hb hoctets⟩

theorem exists_mac {octets : List UInt8} (h : octets.length = 6 ∨ octets.length = 8) :
    ∃ mac : MacAddress, mac.asBytes = octets := by
  rcases h with h | h
  · exact ⟨.eui48 ⟨octets.toArray, h⟩, rfl⟩
  · exact ⟨.eui64 ⟨octets.toArray, h⟩, rfl⟩

theorem macTryFrom_toText (mac : MacAddress) : macTryFrom mac.toText = .ok mac := by
  have hgroups : List.Forall₂ HexGroup (mac.asBytes.map lowerHex) mac.asBytes :=
    List.forall₂_map_left_iff.mpr (List.forall₂_same.mpr fun b _ => hexGroup_lowerHex b)
  refine macTryFrom_of_groups ?_ hgroups
  rw [MacAddress.toText, String.toList_ofList, writeOctets_eq]

/-! ## Exactness -/

/-- The text is read exactly: one or two hexadecimal digits for each octet of an address, with
colons between them, and nothing else. -/
structure ReadExactly (text : String) : Prop where
  accepted : (∃ mac, macTryFrom text = .ok mac) ↔
    ∃ groups, text.toList = [':'].intercalate groups ∧
      (groups.length = 6 ∨ groups.length = 8) ∧ ∀ group ∈ groups, ∃ b, HexGroup group b
  value : ∀ mac, macTryFrom text = .ok mac ↔
    ∃ groups, text.toList = [':'].intercalate groups ∧ List.Forall₂ HexGroup groups mac.asBytes

/-- As many groups as an address has octets, some of them a digit after a plus sign. -/
structure SignedText (text : String) : Prop where
  octets : (List.splitOn ':' text.toList).length = 6 ∨ (List.splitOn ':' text.toList).length = 8
  groups : ∀ part ∈ List.splitOn ':' text.toList, ∃ b, HexGroup part b ∨ SignedGroup part b
  signed : ∃ part ∈ List.splitOn ':' text.toList, ∃ b, SignedGroup part b

theorem length_asBytes_mem (mac : MacAddress) : mac.asBytes.length = 6 ∨ mac.asBytes.length = 8 := by
  rw [mac.length_asBytes]
  cases mac with
  | eui48 o => exact .inl rfl
  | eui64 o => exact .inr rfl

/-- What is read of an unsigned text are hexadecimal groups. -/
theorem macTryFrom_iff_of_not_signed (h : ¬ SignedText text) (mac : MacAddress) :
    macTryFrom text = .ok mac ↔
      ∃ groups, text.toList = [':'].intercalate groups ∧
        List.Forall₂ HexGroup groups mac.asBytes := by
  refine ⟨fun hmac => ?_, fun ⟨groups, htext, hgroups⟩ => macTryFrom_of_groups htext hgroups⟩
  refine ⟨List.splitOn ':' text.toList, (List.intercalate_splitOn ':').symm, ?_⟩
  have hparts := (macTryFrom_eq_ok.mp hmac).imp fun _ _ => hexGroup_of_octetOf
  have hplain : ∀ part ∈ List.splitOn ':' text.toList, ∀ b, ¬ SignedGroup part b := by
    intro part hpart b hsigned
    exact h ⟨hparts.length_eq ▸ length_asBytes_mem mac, forall_exists_of_forall₂ hparts,
      part, hpart, b, hsigned⟩
  rw [List.forall₂_iff_get] at hparts ⊢
  exact ⟨hparts.1, fun i hi hi' => (hparts.2 i hi hi').resolve_right (hplain _ (List.get_mem _ _) _)⟩

theorem readExactly_of_not_signed (h : ¬ SignedText text) : ReadExactly text := by
  refine ⟨⟨?_, ?_⟩, macTryFrom_iff_of_not_signed h⟩
  · rintro ⟨mac, hmac⟩
    obtain ⟨groups, htext, hgroups⟩ := (macTryFrom_iff_of_not_signed h mac).mp hmac
    exact ⟨groups, htext, hgroups.length_eq ▸ length_asBytes_mem mac,
      forall_exists_of_forall₂ hgroups⟩
  · rintro ⟨groups, htext, hlen, hgroups⟩
    obtain ⟨octets, hoctets⟩ := exists_octets hgroups
    obtain ⟨mac, rfl⟩ := exists_mac (hoctets.length_eq ▸ hlen)
    exact ⟨mac, macTryFrom_of_groups htext hoctets⟩

/-- The plus signs of a signed text are read over. -/
theorem SignedText.read (h : SignedText text) : ∃ mac, macTryFrom text = .ok mac := by
  obtain ⟨octets, hoctets⟩ := exists_octets h.groups
  obtain ⟨mac, rfl⟩ := exists_mac (hoctets.length_eq ▸ h.octets)
  exact ⟨mac, macTryFrom_eq_ok.mpr
    (hoctets.imp fun _ _ hb => hb.elim octetOf_of_hexGroup octetOf_of_signedGroup)⟩

theorem SignedText.not_groups (h : SignedText text) (htext : text.toList = [':'].intercalate groups)
    (hlen : groups.length = 6 ∨ groups.length = 8) : ¬ ∀ group ∈ groups, ∃ b, HexGroup group b := by
  intro hgroups
  have hne : groups ≠ [] := by
    rintro rfl
    simp at hlen
  obtain ⟨part, hpart, _, hsigned⟩ := h.signed
  rw [htext, splitOn_groups hne hgroups] at hpart
  obtain ⟨b, hb⟩ := hgroups part hpart
  cases hsigned with
  | mk ha =>
    cases hb with
    | two hplus _ => exact hplus.ne_plus rfl

/-- The adapter's text of an address is read exactly unless it is one in which a digit stands after
a plus sign. What is displayed for an address is read back. -/
theorem mac_text_exact (text : String) (mac : MacAddress) :
    (ReadExactly text ↔ ¬ SignedText text) ∧ macTryFrom mac.toText = .ok mac := by
  refine ⟨⟨fun hexact hsigned => ?_, readExactly_of_not_signed⟩, macTryFrom_toText mac⟩
  obtain ⟨groups, htext, hlen, hgroups⟩ := hexact.accepted.mp hsigned.read
  exact hsigned.not_groups htext hlen hgroups

/-- A text with groups of one digit and of two. -/
theorem mac_text_exact_short :
    ∃ groups, "2:0:0:a:B:1c".toList = [':'].intercalate groups ∧
      List.Forall₂ HexGroup groups (MacAddress.eui48 #v[2, 0, 0, 10, 11, 28]).asBytes := by
  have hplain : ¬ SignedText "2:0:0:a:B:1c" := by
    rintro ⟨-, -, part, hpart, b, hsigned⟩
    cases hsigned with
    | mk ha =>
      have hparts : List.splitOn ':' "2:0:0:a:B:1c".toList =
        [['2'], ['0'], ['0'], ['a'], ['B'], ['1', 'c']] := by decide
      rw [hparts] at hpart
      simp at hpart
  have hread := (mac_text_exact _ (.eui48 #v[2, 0, 0, 10, 11, 28])).1.mpr hplain
  exact (hread.value _).mp (by decide)

/-- A plus sign before a digit is read over. -/
theorem mac_text_exact_signed :
    macTryFrom "+2:00:00:00:00:01" = .ok (.eui48 #v[2, 0, 0, 0, 0, 1]) ∧
    ¬ ∃ groups, "+2:00:00:00:00:01".toList = [':'].intercalate groups ∧
      (groups.length = 6 ∨ groups.length = 8) ∧ ∀ group ∈ groups, ∃ b, HexGroup group b := by
  refine ⟨by decide, ?_⟩
  rintro ⟨groups, htext, hlen, hgroups⟩
  have hne : groups ≠ [] := by
    rintro rfl
    simp at hlen
  have hplus : ['+', '2'] ∈ groups := by
    rw [← splitOn_groups hne hgroups, ← htext]
    decide
  obtain ⟨b, hb⟩ := hgroups _ hplus
  cases hb with
  | two ha hb => exact ha.ne_plus rfl

end Dlep
