import Mathlib.Data.List.Basic
import Mathlib.Data.Int.Basic
import Mathlib.Tactic.Ring

/-!
# The postcard wire format

A value is written without field names or type tags: bytes as they are, wider integers as
little-endian base-128 varints (signed ones zigzagged first), options and booleans as one byte,
the variants of an enumeration by their index, sequences behind their length. A reader takes one
value off the front of its input and returns the rest.

A `Codec` carries its own round-trip law and the bound the format states for its type.
-/

namespace Postcard

/-- Why a value could not be read, or did not fit the output. -/
inductive Error where
  | serializeBufferFull
  | deserializeUnexpectedEnd
  | deserializeBadVarint
  | deserializeBadBool
  | deserializeBadOption
  | serdeDeCustom
  | deserializeBadEncoding
deriving DecidableEq, Repr

theorem bind_eq_ok {ε α β : Type} {x : Except ε α} {f : α → Except ε β} {b : β} :
    (x >>= f) = .ok b ↔ ∃ a, x = .ok a ∧ f a = .ok b := by
  cases x with
  | error e => simp [Bind.bind, Except.bind]
  | ok a => simp [Bind.bind, Except.bind]

abbrev Reader (α : Type) := List UInt8 → Except Error (α × List UInt8)

/-- A writer and a reader of one type: the reader takes back exactly what was written, whatever
follows, and `maxSize` bounds what is written. -/
structure Codec (α : Type) where
  write : α → List UInt8
  read : Reader α
  maxSize : ℕ
  read_write : ∀ a rest, read (write a ++ rest) = .ok (a, rest)
  write_length_le : ∀ a, (write a).length ≤ maxSize

/-! ## Varints -/

/-- At most `k` bytes of seven bits, the least significant first, each but the last marked. -/
def varint : ℕ → ℕ → List UInt8
  | 0, _ => []
  | k + 1, n => if n < 128 then [UInt8.ofNat n] else UInt8.ofNat (n % 128 + 128) :: varint k (n / 128)

def readVarint : ℕ → Reader ℕ
  | 0, _ => .error .deserializeBadVarint
  | _ + 1, [] => .error .deserializeUnexpectedEnd
  | k + 1, b :: bs =>
    if b.toNat < 128 then .ok (b.toNat, bs)
    else do
      let (high, rest) ← readVarint k bs
      .ok (b.toNat - 128 + 128 * high, rest)

/-- The value has to fit the integer type: `bound` is one more than its largest. -/
def readVarintBelow (k bound : ℕ) : Reader ℕ := fun bs => do
  let (n, rest) ← readVarint k bs
  if n < bound then .ok (n, rest) else .error .deserializeBadVarint

theorem varint_length_le (k n : ℕ) : (varint k n).length ≤ k := by
  induction k generalizing n with
  | zero => simp [varint]
  | succ k ih =>
    unfold varint
    split_ifs
    · simp
    · simpa using ih (n / 128)

theorem varint_length_mono (k : ℕ) {m n : ℕ} (h : m ≤ n) :
    (varint k m).length ≤ (varint k n).length := by
  induction k generalizing m n with
  | zero => simp [varint]
  | succ k ih =>
    have hd := ih (Nat.div_le_div_right (c := 128) h)
    unfold varint
    split_ifs
    · simp
    · simp
    · omega
    · simpa using hd

theorem readVarint_varint (k n : ℕ) (rest : List UInt8) (hn : n < 128 ^ (k + 1)) :
    readVarint (k + 1) (varint (k + 1) n ++ rest) = .ok (n, rest) := by
  induction k generalizing n with
  | zero =>
    have hlt : n < 128 := by simpa using hn
    have hb : (UInt8.ofNat n).toNat = n := by rw [UInt8.toNat_ofNat']; omega
    simp [varint, readVarint, hlt, hb]
  | succ k ih =>
    rw [varint]
    split_ifs with hlt
    · have hb : (UInt8.ofNat n).toNat = n := by rw [UInt8.toNat_ofNat']; omega
      simp [readVarint, hlt, hb]
    · have hb : (UInt8.ofNat (n % 128 + 128)).toNat = n % 128 + 128 := by
        rw [UInt8.toNat_ofNat']
        omega
      have hd : n / 128 < 128 ^ (k + 1) := by
        rw [Nat.div_lt_iff_lt_mul (by decide)]
        rwa [pow_succ] at hn
      have hlow : ¬ n % 128 + 128 < 128 := by omega
      rw [List.cons_append, readVarint, hb, if_neg hlow, ih _ hd]
      simp only [Except.bind, Bind.bind, Except.ok.injEq, Prod.mk.injEq, and_true]
      omega

theorem readVarintBelow_varint (k bound n : ℕ) (rest : List UInt8) (hn : n < bound)
    (hb : bound ≤ 128 ^ (k + 1)) :
    readVarintBelow (k + 1) bound (varint (k + 1) n ++ rest) = .ok (n, rest) := by
  simp [readVarintBelow, readVarint_varint k n rest (hn.trans_le hb), Except.bind, Bind.bind, hn]

theorem readVarintBelow_byte (k : ℕ) {bound : ℕ} (hbound : 128 ≤ bound) {b : UInt8}
    (hb : b.toNat < 128) (rest : List UInt8) :
    readVarintBelow (k + 1) bound (b :: rest) = .ok (b.toNat, rest) := by
  simp [readVarintBelow, readVarint, hb, hb.trans_le hbound, Except.bind, Bind.bind]

namespace Codec

/-! ## Combinators -/

variable {α β : Type}

theorem le_foldr_max {ns : List ℕ} {n : ℕ} (h : n ∈ ns) : n ≤ ns.foldr max 0 := by
  induction ns with
  | nil => simp at h
  | cons m ns ih =>
    rw [List.foldr_cons]
    rcases List.mem_cons.mp h with rfl | h
    · exact le_max_left _ _
    · exact (ih h).trans (le_max_right _ _)

/-- Two values one after the other: the fields of a structure. -/
def pair (c : Codec α) (d : Codec β) : Codec (α × β) where
  write x := c.write x.1 ++ d.write x.2
  read bs := do
    let (a, rest) ← c.read bs
    let (b, rest) ← d.read rest
    .ok ((a, b), rest)
  maxSize := c.maxSize + d.maxSize
  read_write x rest := by
    rw [List.append_assoc, c.read_write]
    simp [Except.bind, Bind.bind, d.read_write]
  write_length_le x := by
    rw [List.length_append]
    exact Nat.add_le_add (c.write_length_le x.1) (d.write_length_le x.2)

theorem pair_read_eq_ok {c : Codec α} {d : Codec β} {bs rest : List UInt8} {x : α × β}
    (h : (c.pair d).read bs = .ok (x, rest)) :
    ∃ mid, c.read bs = .ok (x.1, mid) ∧ d.read mid = .ok (x.2, rest) := by
  obtain ⟨⟨a, mid⟩, hc, h⟩ := bind_eq_ok.mp h
  obtain ⟨⟨b, rest'⟩, hd, h⟩ := bind_eq_ok.mp h
  cases h
  exact ⟨mid, hc, hd⟩

theorem pair_read_of_ok {c : Codec α} {d : Codec β} {bs mid : List UInt8} {a : α}
    (h : c.read bs = .ok (a, mid)) :
    (c.pair d).read bs = (d.read mid).map fun x => ((a, x.1), x.2) := by
  simp only [pair, h, Bind.bind, Except.bind]
  cases d.read mid <;> rfl

theorem pair_read_of_error {c : Codec α} {d : Codec β} {bs : List UInt8} {e : Error}
    (h : c.read bs = .error e) : (c.pair d).read bs = .error e := by
  simp only [pair, h, Bind.bind, Except.bind]

/-- A type written through another that represents it. -/
def imap (c : Codec β) (repr : α → β) (back : β → α) (h : ∀ a, back (repr a) = a) : Codec α where
  write a := c.write (repr a)
  read bs := do
    let (b, rest) ← c.read bs
    .ok (back b, rest)
  maxSize := c.maxSize
  read_write a rest := by simp [c.read_write, Except.bind, Bind.bind, h]
  write_length_le a := c.write_length_le (repr a)

theorem imap_read_eq_ok {c : Codec β} {repr : α → β} {back : β → α} {h : ∀ a, back (repr a) = a}
    {bs rest : List UInt8} {a : α} (hr : (c.imap repr back h).read bs = .ok (a, rest)) :
    ∃ b, c.read bs = .ok (b, rest) ∧ back b = a := by
  obtain ⟨⟨b, rest'⟩, hc, hr⟩ := bind_eq_ok.mp hr
  cases hr
  exact ⟨b, hc, rfl⟩

theorem imap_read {c : Codec β} {repr : α → β} {back : β → α} {h : ∀ a, back (repr a) = a}
    (bs : List UInt8) :
    (c.imap repr back h).read bs = (c.read bs).map fun x => (back x.1, x.2) := by
  simp only [imap, Bind.bind, Except.bind]
  cases c.read bs <;> rfl

/-- An integer type of fewer than `bound` values in a varint of at most `k + 1` bytes. -/
def integer (k bound : ℕ) (repr : α → ℕ) (back : ℕ → α) (hb : bound ≤ 128 ^ (k + 1))
    (hrepr : ∀ a, repr a < bound) (h : ∀ a, back (repr a) = a) : Codec α where
  write a := varint (k + 1) (repr a)
  read bs := do
    let (n, rest) ← readVarintBelow (k + 1) bound bs
    .ok (back n, rest)
  maxSize := k + 1
  read_write a rest := by
    simp [readVarintBelow_varint k bound (repr a) rest (hrepr a) hb, Except.bind, Bind.bind, h]
  write_length_le a := varint_length_le _ _

/-- A variant without fields is its place in the declaration, read as a 32-bit varint. -/
def enumeration [DecidableEq α] (values : List α) (h : ∀ a, a ∈ values)
    (hlen : values.length ≤ 128) : Codec α where
  write a := varint 5 (values.idxOf a)
  read bs := do
    let (n, rest) ← readVarintBelow 5 (2 ^ 32) bs
    match values[n]? with
    | some a => .ok (a, rest)
    | none => .error .serdeDeCustom
  maxSize := 1
  read_write a rest := by
    have hlt := List.idxOf_lt_length_of_mem (h a)
    rw [readVarintBelow_varint 4 (2 ^ 32) (values.idxOf a) rest (by omega) (by decide)]
    simp [Except.bind, Bind.bind, List.getElem?_eq_getElem hlt]
  write_length_le a := by
    have hlt := List.idxOf_lt_length_of_mem (h a)
    have h128 : values.idxOf a < 128 := by omega
    simp [varint, h128]

/-- The variants of an enumeration with fields: the variant's place, then its fields. -/
def tagged {ι : Type} [DecidableEq ι] {β : ι → Type} (tags : List ι) (h : ∀ i, i ∈ tags)
    (hlen : tags.length ≤ 128) (c : ∀ i, Codec (β i)) : Codec (Σ i, β i) where
  write x := (enumeration tags h hlen).write x.1 ++ (c x.1).write x.2
  read bs := do
    let (i, rest) ← (enumeration tags h hlen).read bs
    let (b, rest) ← (c i).read rest
    .ok (⟨i, b⟩, rest)
  maxSize := 1 + (tags.map fun i => (c i).maxSize).foldr max 0
  read_write x rest := by
    rw [List.append_assoc, (enumeration tags h hlen).read_write]
    simp [Except.bind, Bind.bind, (c x.1).read_write]
  write_length_le x := by
    rw [List.length_append]
    apply Nat.add_le_add ((enumeration tags h hlen).write_length_le x.1)
    apply ((c x.1).write_length_le x.2).trans
    exact le_foldr_max (List.mem_map_of_mem (h x.1))

/-- One byte, 0 or 1, and the value after a 1. -/
def option (c : Codec α) : Codec (Option α) where
  write
    | none => [0]
    | some a => 1 :: c.write a
  read
    | [] => .error .deserializeUnexpectedEnd
    | b :: bs =>
      if b = 0 then .ok (none, bs)
      else if b = 1 then do
        let (a, rest) ← c.read bs
        .ok (some a, rest)
      else .error .deserializeBadOption
  maxSize := c.maxSize + 1
  read_write x rest := by
    cases x with
    | none => rfl
    | some a => simp [c.read_write, Except.bind, Bind.bind]
  write_length_le x := by
    cases x with
    | none => simp
    | some a => simpa using c.write_length_le a

/-! ## Primitive types -/

def u8 : Codec UInt8 where
  write b := [b]
  read
    | [] => .error .deserializeUnexpectedEnd
    | b :: bs => .ok (b, bs)
  maxSize := 1
  read_write _ _ := rfl
  write_length_le _ := le_rfl

/-- A variant without fields of its own. -/
def unit : Codec Unit where
  write _ := []
  read bs := .ok ((), bs)
  maxSize := 0
  read_write _ _ := rfl
  write_length_le _ := le_rfl

def i8 : Codec Int8 := u8.imap Int8.toUInt8 UInt8.toInt8 fun a => a.toInt8_toUInt8

def bool : Codec Bool where
  write b := [if b then 1 else 0]
  read
    | [] => .error .deserializeUnexpectedEnd
    | b :: bs =>
      if b = 0 then .ok (false, bs)
      else if b = 1 then .ok (true, bs)
      else .error .deserializeBadBool
  maxSize := 1
  read_write b rest := by cases b <;> rfl
  write_length_le _ := le_rfl

def u16 : Codec UInt16 :=
  integer 2 (2 ^ 16) UInt16.toNat UInt16.ofNat (by decide) UInt16.toNat_lt
    fun a => UInt16.ofNat_toNat

def u32 : Codec UInt32 :=
  integer 4 (2 ^ 32) UInt32.toNat UInt32.ofNat (by decide) UInt32.toNat_lt
    fun a => UInt32.ofNat_toNat

def u64 : Codec UInt64 :=
  integer 9 (2 ^ 64) UInt64.toNat UInt64.ofNat (by decide) UInt64.toNat_lt
    fun a => UInt64.ofNat_toNat

/-- Small magnitudes of either sign become small numbers: 0, -1, 1, -2, … -/
def zigzag (n : ℤ) : ℕ := if 0 ≤ n then (2 * n).toNat else (-2 * n - 1).toNat

def unzigzag (m : ℕ) : ℤ := if m % 2 = 0 then (m / 2 : ℕ) else -((m / 2 : ℕ) + 1)

theorem unzigzag_zigzag (n : ℤ) : unzigzag (zigzag n) = n := by
  unfold unzigzag zigzag
  split_ifs <;> omega

def i16 : Codec Int16 :=
  integer 2 (2 ^ 16) (fun a => zigzag a.toInt) (fun n => Int16.ofInt (unzigzag n)) (by decide)
    (fun a => by
      have hl := a.le_toInt
      have hu := a.toInt_lt
      unfold zigzag
      split_ifs <;> omega)
    (fun a => by rw [unzigzag_zigzag, Int16.ofInt_toInt])

theorem u32_read_byte {b : UInt8} (hb : b.toNat < 128) (rest : List UInt8) :
    u32.read (b :: rest) = .ok (UInt32.ofNat b.toNat, rest) := by
  have hread : readVarintBelow 5 (2 ^ 32) (b :: rest) = .ok (b.toNat, rest) :=
    readVarintBelow_byte 4 (by decide) hb rest
  simp only [u32, integer, hread, Except.bind, Bind.bind]

theorem enumeration_read_byte [DecidableEq α] {values : List α} (h : ∀ a, a ∈ values)
    (hlen : values.length ≤ 128) {b : UInt8} (hlow : values.length ≤ b.toNat)
    (hb : b.toNat < 128) (rest : List UInt8) :
    (enumeration values h hlen).read (b :: rest) = .error .serdeDeCustom := by
  have hread : readVarintBelow 5 (2 ^ 32) (b :: rest) = .ok (b.toNat, rest) :=
    readVarintBelow_byte 4 (by decide) hb rest
  simp only [enumeration, hread, List.getElem?_eq_none hlow, Except.bind, Bind.bind]

/-! ## Bounded sequences -/

/-- The elements of a sequence, refused once the `room` of the vector read into is used up. -/
def readElems (c : Codec α) : ℕ → ℕ → Reader (List α)
  | 0, _, bs => .ok ([], bs)
  | _ + 1, 0, bs => do
    let _ ← c.read bs
    .error .serdeDeCustom
  | n + 1, room + 1, bs => do
    let (a, rest) ← c.read bs
    let (as, rest) ← readElems c n room rest
    .ok (a :: as, rest)

theorem readElems_flatMap (c : Codec α) (as : List α) (room : ℕ) (rest : List UInt8)
    (h : as.length ≤ room) :
    readElems c as.length room (as.flatMap c.write ++ rest) = .ok (as, rest) := by
  induction as generalizing room with
  | nil => simp [readElems]
  | cons a as ih =>
    obtain ⟨room, rfl⟩ := Nat.exists_eq_add_of_le' (Nat.succ_pos _ |>.trans_le h)
    simp only [List.length_cons, List.flatMap_cons, List.append_assoc, readElems]
    rw [c.read_write]
    simp only [Except.bind, Bind.bind]
    rw [ih room (by simpa using h)]

theorem flatMap_write_length_le (c : Codec α) (as : List α) :
    (as.flatMap c.write).length ≤ c.maxSize * as.length := by
  induction as with
  | nil => simp
  | cons a as ih =>
    rw [List.flatMap_cons, List.length_append, List.length_cons, Nat.mul_succ, Nat.add_comm]
    exact Nat.add_le_add ih (c.write_length_le a)

/-- A vector of at most `cap` elements: its length as a varint, then its elements. -/
def vec (c : Codec α) (cap : ℕ) (hcap : cap < 2 ^ 32) : Codec {as : List α // as.length ≤ cap} where
  write x := varint 5 x.val.length ++ x.val.flatMap c.write
  read bs := do
    let (n, rest) ← readVarintBelow 5 (2 ^ 32) bs
    let (as, rest) ← readElems c n cap rest
    if h : as.length ≤ cap then .ok (⟨as, h⟩, rest) else .error .serdeDeCustom
  maxSize := c.maxSize * cap + (varint 5 cap).length
  read_write x rest := by
    rw [List.append_assoc,
      readVarintBelow_varint 4 (2 ^ 32) _ _ (x.property.trans_lt hcap) (by decide)]
    simp only [Except.bind, Bind.bind]
    rw [readElems_flatMap c x.val cap rest x.property]
    simp [x.property]
  write_length_le x := by
    have hlen := varint_length_mono 5 x.property
    have helems := flatMap_write_length_le c x.val
    have hmul := Nat.mul_le_mul_left c.maxSize x.property
    rw [List.length_append]
    omega

/-! ## Cut input -/

/-- What is read off the front does not depend on what follows. -/
def Extends (c : Codec α) : Prop :=
  ∀ ⦃bs rest : List UInt8⦄ ⦃a : α⦄, c.read bs = .ok (a, rest) →
    ∀ more, c.read (bs ++ more) = .ok (a, rest ++ more)

/-- A value that was cut short is not read. -/
theorem Extends.read_take {c : Codec α} (hc : c.Extends) (a : α) {k : ℕ}
    (hk : k < (c.write a).length) : (c.read ((c.write a).take k)).toOption = none := by
  cases h : c.read ((c.write a).take k) with
  | error e => rfl
  | ok x =>
    have hwhole := hc h ((c.write a).drop k)
    have hback := c.read_write a []
    rw [List.take_append_drop] at hwhole
    rw [List.append_nil, hwhole] at hback
    have hnil : x.2 ++ (c.write a).drop k = [] := congrArg Prod.snd (Except.ok.inj hback)
    have hlen := congrArg List.length hnil
    rw [List.length_append, List.length_drop, List.length_nil] at hlen
    omega

/-! ## What a value is read from -/

/-- A value is read from a first part of the input alone, which is no shorter than its encoding. -/
def Local (c : Codec α) : Prop :=
  ∀ ⦃bs rest : List UInt8⦄ ⦃a : α⦄, c.read bs = .ok (a, rest) →
    ∃ used, bs = used ++ rest ∧ (c.write a).length ≤ used.length ∧
      ∀ more, c.read (used ++ more) = .ok (a, more)

theorem Local.extends {c : Codec α} (hc : c.Local) : c.Extends := by
  intro bs rest a h more
  obtain ⟨used, rfl, -, hread⟩ := hc h
  rw [List.append_assoc, hread]

/-- No part of what a value is read from gives a value itself. -/
theorem Local.read_cut {c : Codec α} (hc : c.Local) {used : List UInt8} {a : α}
    (h : c.read used = .ok (a, [])) {k : ℕ} (hk : k < used.length) :
    (c.read (used.take k)).toOption = none := by
  cases hcut : c.read (used.take k) with
  | error e => rfl
  | ok x =>
    have hwhole := hc.extends hcut (used.drop k)
    rw [List.take_append_drop, h] at hwhole
    have hnil : [] = x.2 ++ used.drop k := congrArg Prod.snd (Except.ok.inj hwhole)
    have hlen := congrArg List.length hnil
    rw [List.length_append, List.length_drop, List.length_nil] at hlen
    omega

theorem local_readVarint {k n : ℕ} {bs rest : List UInt8} (h : readVarint k bs = .ok (n, rest)) :
    ∃ used, bs = used ++ rest ∧ (varint k n).length ≤ used.length ∧
      ∀ more, readVarint k (used ++ more) = .ok (n, more) := by
  induction k generalizing bs n with
  | zero => cases h
  | succ k ih =>
    match bs with
    | [] => cases h
    | b :: bs =>
      rw [readVarint] at h
      split_ifs at h with hlast
      · cases h
        exact ⟨[b], rfl, by simp [varint, hlast], fun more => by simp [readVarint, hlast]⟩
      · obtain ⟨⟨high, rest'⟩, hread, h⟩ := bind_eq_ok.mp h
        cases h
        obtain ⟨used, rfl, hlen, hmore⟩ := ih hread
        refine ⟨b :: used, rfl, ?_, fun more => ?_⟩
        · have hb := b.toNat_lt
          have hdiv : (b.toNat - 128 + 128 * high) / 128 = high := by omega
          rw [varint, hdiv]
          split_ifs
          · simp
          · simpa using hlen
        · simp [readVarint, hlast, hmore, Except.bind, Bind.bind]

theorem local_readVarintBelow {k bound n : ℕ} {bs rest : List UInt8}
    (h : readVarintBelow k bound bs = .ok (n, rest)) :
    n < bound ∧ ∃ used, bs = used ++ rest ∧ (varint k n).length ≤ used.length ∧
      ∀ more, readVarintBelow k bound (used ++ more) = .ok (n, more) := by
  obtain ⟨⟨m, rest'⟩, hread, hok⟩ := bind_eq_ok.mp h
  obtain ⟨used, rfl, hlen, hmore⟩ := local_readVarint hread
  dsimp only at hok
  split_ifs at hok with hbound
  cases hok
  refine ⟨hbound, used, rfl, hlen, fun more => ?_⟩
  simp [readVarintBelow, hmore, hbound, Except.bind, Bind.bind]

theorem local_integer {k bound : ℕ} {repr : α → ℕ} {back : ℕ → α} {hb : bound ≤ 128 ^ (k + 1)}
    {hrepr : ∀ a, repr a < bound} {h : ∀ a, back (repr a) = a}
    (hback : ∀ n, n < bound → repr (back n) ≤ n) :
    (integer k bound repr back hb hrepr h).Local := by
  intro bs rest a hread
  obtain ⟨⟨n, rest'⟩, hbelow, hread⟩ := bind_eq_ok.mp hread
  cases hread
  obtain ⟨hbound, used, rfl, hlen, hmore⟩ := local_readVarintBelow hbelow
  refine ⟨used, rfl, (varint_length_mono _ (hback n hbound)).trans hlen, fun more => ?_⟩
  simp [integer, hmore, Except.bind, Bind.bind]

theorem local_u8 : u8.Local := by
  intro bs rest a h
  match bs with
  | [] => cases h
  | _ :: _ =>
    cases h
    exact ⟨[a], rfl, le_rfl, fun more => rfl⟩

theorem local_unit : unit.Local := by
  intro bs rest a h
  cases h
  exact ⟨[], rfl, le_rfl, fun more => rfl⟩

theorem local_bool : bool.Local := by
  intro bs rest a h
  match bs with
  | [] => cases h
  | b :: bs =>
    simp only [bool] at h
    split_ifs at h with h0 h1
    · cases h
      exact ⟨[b], rfl, le_rfl, fun more => by simp [bool, h0]⟩
    · cases h
      exact ⟨[b], rfl, le_rfl, fun more => by simp [bool, h1]⟩

theorem local_u16 : u16.Local :=
  local_integer fun _ hn => (UInt16.toNat_ofNat_of_lt hn).le

theorem local_u32 : u32.Local :=
  local_integer fun _ hn => (UInt32.toNat_ofNat_of_lt hn).le

theorem local_u64 : u64.Local :=
  local_integer fun _ hn => (UInt64.toNat_ofNat_of_lt hn).le

theorem zigzag_unzigzag (n : ℕ) : zigzag (unzigzag n) = n := by
  unfold zigzag unzigzag
  split_ifs <;> omega

theorem local_i16 : i16.Local := by
  apply local_integer
  intro n hn
  have hlow : -2 ^ 15 ≤ unzigzag n := by
    unfold unzigzag
    split_ifs <;> omega
  have hhigh : unzigzag n < 2 ^ 15 := by
    unfold unzigzag
    split_ifs <;> omega
  rw [Int16.toInt_ofInt_of_le hlow hhigh, zigzag_unzigzag]

theorem Local.pair {c : Codec α} {d : Codec β} (hc : c.Local) (hd : d.Local) :
    (c.pair d).Local := by
  intro bs rest x h
  obtain ⟨mid, hfirst, hsecond⟩ := pair_read_eq_ok h
  obtain ⟨used₁, rfl, hlen₁, hmore₁⟩ := hc hfirst
  obtain ⟨used₂, rfl, hlen₂, hmore₂⟩ := hd hsecond
  refine ⟨used₁ ++ used₂, by rw [List.append_assoc], ?_, fun more => ?_⟩
  · simp only [Codec.pair, List.length_append]
    omega
  · simp [Codec.pair, List.append_assoc, hmore₁, hmore₂, Except.bind, Bind.bind]

theorem Local.imap {c : Codec β} (hc : c.Local) {repr : α → β} {back : β → α}
    {h : ∀ a, back (repr a) = a} (hback : ∀ b, repr (back b) = b) :
    (c.imap repr back h).Local := by
  intro bs rest a hread
  obtain ⟨b, hb, rfl⟩ := imap_read_eq_ok hread
  obtain ⟨used, rfl, hlen, hmore⟩ := hc hb
  refine ⟨used, rfl, ?_, fun more => ?_⟩
  · simpa only [Codec.imap, hback] using hlen
  · simp [Codec.imap, hmore, Except.bind, Bind.bind]

theorem local_i8 : i8.Local := local_u8.imap fun b => b.toUInt8_toInt8

theorem idxOf_le [DecidableEq α] {values : List α} {n : ℕ} {a : α} (h : values[n]? = some a) :
    values.idxOf a ≤ n := by
  obtain ⟨hn, rfl⟩ := List.getElem?_eq_some_iff.mp h
  by_contra! hlt
  have hne := List.not_of_lt_findIdx hlt
  simp at hne

theorem local_enumeration [DecidableEq α] {values : List α} {h : ∀ a, a ∈ values}
    {hlen : values.length ≤ 128} : (enumeration values h hlen).Local := by
  intro bs rest a hread
  obtain ⟨⟨n, rest'⟩, hbelow, hok⟩ := bind_eq_ok.mp hread
  obtain ⟨-, used, rfl, hused, hmore⟩ := local_readVarintBelow hbelow
  cases hget : values[n]? with
  | none => simp [hget] at hok
  | some b =>
    simp only [hget, Except.ok.injEq, Prod.mk.injEq] at hok
    obtain ⟨rfl, rfl⟩ := hok
    refine ⟨used, rfl, ?_, fun more => ?_⟩
    · exact (varint_length_mono _ (idxOf_le hget)).trans hused
    · simp only [enumeration, hmore, hget, Except.bind, Bind.bind]

theorem local_tagged {ι : Type} [DecidableEq ι] {β : ι → Type} {tags : List ι}
    {h : ∀ i, i ∈ tags} {hlen : tags.length ≤ 128} {c : ∀ i, Codec (β i)}
    (hc : ∀ i, (c i).Local) : (tagged tags h hlen c).Local := by
  intro bs rest x hread
  obtain ⟨⟨i, mid⟩, htag, hread⟩ := bind_eq_ok.mp hread
  obtain ⟨⟨b, rest'⟩, hfields, hread⟩ := bind_eq_ok.mp hread
  cases hread
  obtain ⟨used₁, rfl, hlen₁, hmore₁⟩ := local_enumeration htag
  obtain ⟨used₂, rfl, hlen₂, hmore₂⟩ := hc i hfields
  refine ⟨used₁ ++ used₂, by rw [List.append_assoc], ?_, fun more => ?_⟩
  · simp only [tagged, List.length_append]
    omega
  · simp [tagged, List.append_assoc, hmore₁, hmore₂, Except.bind, Bind.bind]

theorem Local.option {c : Codec α} (hc : c.Local) : (option c).Local := by
  intro bs rest x hread
  match bs with
  | [] => cases hread
  | b :: bs =>
    simp only [Codec.option] at hread
    split_ifs at hread with h0 h1
    · cases hread
      exact ⟨[b], rfl, le_rfl, fun more => by simp [Codec.option, h0]⟩
    · obtain ⟨⟨a, rest'⟩, hvalue, hread⟩ := bind_eq_ok.mp hread
      cases hread
      obtain ⟨used, rfl, hlen, hmore⟩ := hc hvalue
      refine ⟨b :: used, rfl, by simpa [Codec.option] using hlen, fun more => ?_⟩
      simp [Codec.option, h1, hmore, Except.bind, Bind.bind]

theorem local_readElems {c : Codec α} (hc : c.Local) {n room : ℕ} {bs rest : List UInt8}
    {as : List α} (h : readElems c n room bs = .ok (as, rest)) :
    as.length = n ∧ ∃ used, bs = used ++ rest ∧ (as.flatMap c.write).length ≤ used.length ∧
      ∀ more, readElems c n room (used ++ more) = .ok (as, more) := by
  induction n generalizing room bs as with
  | zero =>
    cases room <;>
    · cases h
      exact ⟨rfl, [], rfl, le_rfl, fun more => by simp [readElems]⟩
  | succ n ih =>
    cases room with
    | zero =>
      obtain ⟨x, -, h⟩ := bind_eq_ok.mp h
      cases h
    | succ room =>
      obtain ⟨⟨a, mid⟩, hfirst, h⟩ := bind_eq_ok.mp h
      obtain ⟨⟨as', rest'⟩, hothers, h⟩ := bind_eq_ok.mp h
      cases h
      obtain ⟨used₁, rfl, hlen₁, hmore₁⟩ := hc hfirst
      obtain ⟨hcount, used₂, rfl, hlen₂, hmore₂⟩ := ih hothers
      refine ⟨congrArg (· + 1) hcount, used₁ ++ used₂, by rw [List.append_assoc], ?_,
        fun more => ?_⟩
      · rw [List.flatMap_cons, List.length_append, List.length_append]
        omega
      · simp [readElems, List.append_assoc, hmore₁, hmore₂, Except.bind, Bind.bind]

theorem Local.vec {c : Codec α} (hc : c.Local) {cap : ℕ} {hcap : cap < 2 ^ 32} :
    (vec c cap hcap).Local := by
  intro bs rest x hread
  obtain ⟨⟨n, mid⟩, hcount, hread⟩ := bind_eq_ok.mp hread
  obtain ⟨⟨as, rest'⟩, helems, hok⟩ := bind_eq_ok.mp hread
  obtain ⟨-, used₁, rfl, hlen₁, hmore₁⟩ := local_readVarintBelow hcount
  obtain ⟨hn, used₂, rfl, hlen₂, hmore₂⟩ := local_readElems hc helems
  dsimp only at hok
  split_ifs at hok with hcapacity
  cases hok
  refine ⟨used₁ ++ used₂, by rw [List.append_assoc], ?_, fun more => ?_⟩
  · simp only [Codec.vec, List.length_append, hn]
    omega
  · simp only [Codec.vec, List.append_assoc, hmore₁, hmore₂, hcapacity, dite_true, Except.bind,
      Bind.bind]

end Codec

end Postcard
