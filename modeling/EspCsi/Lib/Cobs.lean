import Mathlib.Algebra.BigOperators.Group.List.Basic
import Mathlib.Data.List.Basic
import Mathlib.Tactic.Linarith

/-!
# Consistent overhead byte stuffing

The published encoding: a message is cut into blocks at its zero bytes and after every 254 bytes
without one, and each block is written as a code byte (its length plus one) followed by its data.
The encoded frame holds no zero byte, so a zero byte delimits frames in a stream.
-/

namespace Cobs

/-- One block: the code byte and the data it announces. -/
def block (data : List UInt8) : List UInt8 := UInt8.ofNat (data.length + 1) :: data

/-- Encode what is left of a message, `cur` being the data of the block in progress. -/
def encodeFrom (cur : List UInt8) : List UInt8 → List UInt8
  | [] => block cur
  | b :: bs =>
    if b = 0 then block cur ++ encodeFrom [] bs
    else if cur.length = 253 then block (cur ++ [b]) ++ encodeFrom [] bs
    else encodeFrom (cur ++ [b]) bs

def encode (msg : List UInt8) : List UInt8 := encodeFrom [] msg

/-- Decode with `n` data bytes of the current block outstanding. A block of 254 bytes (`full`)
carries no implied zero. -/
def decodeFrom : ℕ → Bool → List UInt8 → Option (List UInt8)
  | 0, _, [] => some []
  | _ + 1, _, [] => none
  | n + 1, full, b :: bs => if b = 0 then none else (decodeFrom n full bs).map (b :: ·)
  | 0, full, code :: bs =>
    if code = 0 then none
    else (decodeFrom (code.toNat - 1) (code == 255) bs).map
      (fun out => if full then out else 0 :: out)

/-- Decode one frame given without its delimiter. -/
def decode : List UInt8 → Option (List UInt8)
  | [] => none
  | code :: bs => if code = 0 then none else decodeFrom (code.toNat - 1) (code == 255) bs

theorem block_length (data : List UInt8) : (block data).length = data.length + 1 := rfl

theorem code_toNat {data : List UInt8} (h : data.length ≤ 254) :
    (UInt8.ofNat (data.length + 1)).toNat = data.length + 1 := by
  rw [UInt8.toNat_ofNat']
  omega

theorem code_ne_zero {data : List UInt8} (h : data.length ≤ 254) :
    UInt8.ofNat (data.length + 1) ≠ 0 := by
  intro hz
  have hn := congrArg UInt8.toNat hz
  rw [code_toNat h] at hn
  simp at hn

theorem code_full {data : List UInt8} (h : data.length ≤ 254) :
    (UInt8.ofNat (data.length + 1) == 255) = decide (data.length = 254) := by
  rw [Bool.eq_iff_iff, beq_iff_eq, decide_eq_true_eq, ← UInt8.toNat_inj, code_toNat h]
  change data.length + 1 = 255 ↔ _
  omega

/-! ## The frame holds no zero byte -/

theorem zero_not_mem_block {data : List UInt8} (h0 : 0 ∉ data) (h : data.length ≤ 254) :
    0 ∉ block data := by
  simp only [block, List.mem_cons, not_or]
  exact ⟨(code_ne_zero h).symm, h0⟩

theorem zero_not_mem_encodeFrom (cur msg : List UInt8) (h0 : 0 ∉ cur) (h : cur.length ≤ 253) :
    0 ∉ encodeFrom cur msg := by
  induction msg generalizing cur with
  | nil => exact zero_not_mem_block h0 (by omega)
  | cons b bs ih =>
    have hnil : 0 ∉ encodeFrom [] bs := ih [] (by simp) (by simp)
    unfold encodeFrom
    split_ifs with hb hc
    · rw [List.mem_append, not_or]
      exact ⟨zero_not_mem_block h0 (by omega), hnil⟩
    · rw [List.mem_append, not_or]
      refine ⟨zero_not_mem_block ?_ (by simp [hc]), hnil⟩
      simpa [h0] using fun hz => hb hz.symm
    · apply ih
      · simpa [h0] using fun hz => hb hz.symm
      · simp only [List.length_append, List.length_singleton]
        omega

theorem zero_not_mem_encode (msg : List UInt8) : 0 ∉ encode msg :=
  zero_not_mem_encodeFrom [] msg (by simp) (by simp)

/-! ## Round trip -/

theorem decodeFrom_data (data tail : List UInt8) (full : Bool) (h0 : 0 ∉ data) :
    decodeFrom data.length full (data ++ tail) = (decodeFrom 0 full tail).map (data ++ ·) := by
  induction data with
  | nil => cases h : decodeFrom 0 full tail <;> simp [h]
  | cons b bs ih =>
    simp only [List.mem_cons, not_or] at h0
    simp only [List.length_cons, List.cons_append, decodeFrom, if_neg (Ne.symm h0.1)]
    rw [ih h0.2, Option.map_map]
    rfl

theorem decodeFrom_block (data tail : List UInt8) (full : Bool) (h0 : 0 ∉ data)
    (h : data.length ≤ 254) :
    decodeFrom 0 full (block data ++ tail) =
      (decodeFrom 0 (decide (data.length = 254)) tail).map
        (fun out => (if full then [] else [0]) ++ data ++ out) := by
  simp only [block, List.cons_append, decodeFrom, if_neg (code_ne_zero h)]
  rw [code_toNat h, code_full h, Nat.add_sub_cancel, decodeFrom_data _ _ _ h0, Option.map_map]
  congr 1
  funext out
  cases full <;> simp

theorem decodeFrom_encodeFrom (cur msg : List UInt8) (full : Bool) (h0 : 0 ∉ cur)
    (h : cur.length ≤ 253) :
    decodeFrom 0 full (encodeFrom cur msg) =
      some ((if full then [] else [0]) ++ cur ++ msg) := by
  induction msg generalizing cur full with
  | nil =>
    have hb := decodeFrom_block cur [] full h0 (by omega)
    rw [List.append_nil] at hb
    simp [encodeFrom, hb, decodeFrom]
  | cons b bs ih =>
    by_cases hb : b = 0
    · have hlen : decide (cur.length = 254) = false := decide_eq_false (by omega)
      rw [encodeFrom, if_pos hb, decodeFrom_block _ _ _ h0 (by omega), ih [] _ (by simp) (by simp),
        hlen]
      simp [hb]
    have hmem : 0 ∉ cur ++ [b] := by simpa [h0] using fun hz => hb hz.symm
    by_cases hc : cur.length = 253
    · have hlen : (cur ++ [b]).length = 254 := by simp [hc]
      rw [encodeFrom, if_neg hb, if_pos hc, decodeFrom_block _ _ _ hmem (by omega),
        ih [] _ (by simp) (by simp), decide_eq_true hlen]
      simp
    · have hlen : (cur ++ [b]).length ≤ 253 := by
        simp only [List.length_append, List.length_singleton]
        omega
      rw [encodeFrom, if_neg hb, if_neg hc, ih (cur ++ [b]) full hmem hlen]
      simp

/-- The first block has no predecessor, so no zero is implied before it. -/
theorem decode_eq_decodeFrom {code : UInt8} {bs : List UInt8} :
    decode (code :: bs) = decodeFrom 0 true (code :: bs) := by
  simp only [decode, decodeFrom]
  split_ifs
  · rfl
  · simp

theorem encodeFrom_ne_nil (cur msg : List UInt8) : encodeFrom cur msg ≠ [] := by
  induction msg generalizing cur with
  | nil => simp [encodeFrom, block]
  | cons b bs ih =>
    unfold encodeFrom
    split_ifs
    · simp [block]
    · simp [block]
    · exact ih _

theorem decode_encode (msg : List UInt8) : decode (encode msg) = some msg := by
  obtain ⟨code, bs, hcons⟩ := List.exists_cons_of_ne_nil (encodeFrom_ne_nil [] msg)
  have h := decodeFrom_encodeFrom [] msg true (by simp) (by simp)
  rw [hcons, ← decode_eq_decodeFrom] at h
  rw [encode, hcons, h]
  rfl

theorem exists_cons_of_decodeFrom {n : ℕ} {full : Bool} {bs out : List UInt8}
    (h : decodeFrom (n + 1) full bs = some out) : ∃ b bs' tl, bs = b :: bs' ∧ out = b :: tl := by
  cases bs with
  | nil => cases h
  | cons b bs =>
    rw [decodeFrom] at h
    split_ifs at h
    obtain ⟨tl, -, rfl⟩ := Option.map_eq_some_iff.mp h
    exact ⟨b, bs, tl, rfl, rfl⟩

theorem decode_head {code : UInt8} {bs out : List UInt8} (hc : 2 ≤ code.toNat)
    (h : decode (code :: bs) = some out) : ∃ b bs' tl, bs = b :: bs' ∧ out = b :: tl := by
  obtain ⟨n, hn⟩ : ∃ n, code.toNat - 1 = n + 1 := ⟨code.toNat - 2, by omega⟩
  rw [decode, hn] at h
  split_ifs at h
  exact exists_cons_of_decodeFrom h

theorem decodeFrom_head {code : UInt8} {bs out : List UInt8} (hc : 2 ≤ code.toNat)
    (h : decodeFrom 0 false (code :: bs) = some out) :
    ∃ b bs' tl, bs = b :: bs' ∧ out = 0 :: b :: tl := by
  obtain ⟨n, hn⟩ : ∃ n, code.toNat - 1 = n + 1 := ⟨code.toNat - 2, by omega⟩
  have hcode : code ≠ 0 := by
    rintro rfl
    exact absurd hc (by decide)
  rw [decodeFrom, if_neg hcode, hn] at h
  obtain ⟨out', hout, rfl⟩ := Option.map_eq_some_iff.mp h
  obtain ⟨b, bs', tl, rfl, rfl⟩ := exists_cons_of_decodeFrom hout
  exact ⟨b, bs', tl, rfl, rfl⟩

/-! ## Which frames decode -/

/-- With `n` data bytes of a block outstanding, the blocks end where the bytes do. -/
def blocksEnd : ℕ → List UInt8 → Bool
  | 0, [] => true
  | _ + 1, [] => false
  | n + 1, _ :: bs => blocksEnd n bs
  | 0, code :: bs => blocksEnd (code.toNat - 1) bs

theorem isSome_decodeFrom {bs : List UInt8} (h0 : 0 ∉ bs) (n : ℕ) (full : Bool) :
    (decodeFrom n full bs).isSome = blocksEnd n bs := by
  induction bs generalizing n full with
  | nil => cases n <;> rfl
  | cons b bs ih =>
    obtain ⟨hb, hbs⟩ := not_or.mp (mt List.mem_cons.mpr h0)
    cases n with
    | zero => rw [decodeFrom, if_neg (Ne.symm hb), Option.isSome_map, ih hbs, blocksEnd]
    | succ n => rw [decodeFrom, if_neg (Ne.symm hb), Option.isSome_map, ih hbs, blocksEnd]

theorem isSome_decode {code : UInt8} {bs : List UInt8} (h0 : 0 ∉ code :: bs) :
    (decode (code :: bs)).isSome = blocksEnd 0 (code :: bs) := by
  rw [decode_eq_decodeFrom, isSome_decodeFrom h0]

theorem exists_data_of_decodeFrom {n : ℕ} {full : Bool} {bs out : List UInt8}
    (h : decodeFrom n full bs = some out) :
    ∃ data tail out', bs = data ++ tail ∧ data.length = n ∧
      decodeFrom 0 full tail = some out' ∧ out = data ++ out' := by
  induction n generalizing bs out with
  | zero => exact ⟨[], bs, out, rfl, rfl, h, rfl⟩
  | succ n ih =>
    cases bs with
    | nil => cases h
    | cons b bs =>
      rw [decodeFrom] at h
      split_ifs at h
      obtain ⟨out', hout, rfl⟩ := Option.map_eq_some_iff.mp h
      obtain ⟨data, tail, rest, rfl, hlen, hrest, rfl⟩ := ih hout
      exact ⟨b :: data, tail, rest, rfl, congrArg (· + 1) hlen, hrest, rfl⟩

/-! ## Cut and continued frames -/

/-- What a part of a frame decodes to is the beginning of what the frame decodes to. -/
theorem decodeFrom_prefix {n : ℕ} {full : Bool} {bs more part out : List UInt8}
    (hpart : decodeFrom n full bs = some part) (hout : decodeFrom n full (bs ++ more) = some out) :
    part <+: out := by
  induction bs generalizing n full part out with
  | nil =>
    cases n with
    | zero =>
      cases hpart
      exact List.nil_prefix
    | succ n => cases hpart
  | cons b bs ih =>
    cases n with
    | zero =>
      rw [List.cons_append, decodeFrom] at hout
      rw [decodeFrom] at hpart
      have hb : b ≠ 0 := by
        rintro rfl
        simp at hpart
      rw [if_neg hb] at hpart hout
      obtain ⟨part', hpart', rfl⟩ := Option.map_eq_some_iff.mp hpart
      obtain ⟨out', hout', rfl⟩ := Option.map_eq_some_iff.mp hout
      have hprefix := ih hpart' hout'
      cases full with
      | true => exact hprefix
      | false => exact List.cons_prefix_cons.mpr ⟨rfl, hprefix⟩
    | succ n =>
      rw [List.cons_append, decodeFrom] at hout
      rw [decodeFrom] at hpart
      split_ifs at hpart hout with hb
      obtain ⟨part', hpart', rfl⟩ := Option.map_eq_some_iff.mp hpart
      obtain ⟨out', hout', rfl⟩ := Option.map_eq_some_iff.mp hout
      exact List.cons_prefix_cons.mpr ⟨rfl, ih hpart' hout'⟩

theorem decode_prefix {bs frame part out : List UInt8} (h : bs <+: frame)
    (hpart : decode bs = some part) (hout : decode frame = some out) : part <+: out := by
  obtain ⟨more, rfl⟩ := h
  match bs with
  | [] => cases hpart
  | code :: bs =>
    rw [decode_eq_decodeFrom] at hpart
    rw [List.cons_append, decode_eq_decodeFrom, ← List.cons_append] at hout
    exact decodeFrom_prefix hpart hout

theorem blocksEnd_append {n : ℕ} {bs more : List UInt8} (h : blocksEnd n bs = true) :
    blocksEnd n (bs ++ more) = blocksEnd 0 more := by
  induction bs generalizing n with
  | nil =>
    cases n with
    | zero => rfl
    | succ n => cases h
  | cons b bs ih => cases n <;> exact ih h

theorem blocksEnd_encode (msg : List UInt8) : blocksEnd 0 (encode msg) = true := by
  obtain ⟨code, bs, hcons⟩ := List.exists_cons_of_ne_nil (encodeFrom_ne_nil [] msg)
  have h0 := zero_not_mem_encode msg
  have hsome := decode_encode msg
  rw [encode, hcons] at h0 hsome ⊢
  rw [← isSome_decode h0, hsome]
  rfl

/-! ## Length -/

theorem encodeFrom_length_le (cur msg : List UInt8) (h : cur.length ≤ 253) :
    (encodeFrom cur msg).length ≤
      cur.length + msg.length + 1 + (cur.length + msg.length) / 254 := by
  induction msg generalizing cur with
  | nil =>
    simp only [encodeFrom, block_length, List.length_nil]
    omega
  | cons b bs ih =>
    have hnil := ih [] (by simp)
    simp only [List.length_nil, Nat.zero_add] at hnil
    unfold encodeFrom
    split_ifs with hb hc
    · simp only [List.length_append, block_length, List.length_cons]
      omega
    · simp only [List.length_append, block_length, List.length_cons, List.length_nil]
      omega
    · have hcur := ih (cur ++ [b]) (by simp only [List.length_append, List.length_singleton]; omega)
      simp only [List.length_append, List.length_cons, List.length_nil] at hcur ⊢
      omega

theorem encode_length_le (msg : List UInt8) :
    (encode msg).length ≤ msg.length + 1 + msg.length / 254 := by
  simpa [encode] using encodeFrom_length_le [] msg (by simp)

/-! ## Delimited streams -/

section Delimited

variable {α : Type*} {d : α}

/-- A stream that has no chunk in progress. -/
def Closed (d : α) (as : List α) : Prop := as = [] ∨ as.getLast? = some d

theorem Closed.append {as bs : List α} (ha : Closed d as) (hb : Closed d bs) :
    Closed d (as ++ bs) := by
  rcases hb with rfl | hb
  · simpa using ha
  · right
    simp [List.getLast?_append, hb]

variable [BEq α] [LawfulBEq α]

theorem splitOn_append_of_closed {as : List α} (bs : List α) (h : Closed d as) :
    (as ++ bs).splitOn d = (as.splitOn d).dropLast ++ bs.splitOn d := by
  rcases h with rfl | h
  · simp
  · obtain ⟨init, rfl⟩ := List.getLast?_eq_some_iff.mp h
    rw [List.append_assoc, List.singleton_append, List.splitOn_append_cons_self,
      List.splitOn_append_cons_self, List.splitOn_nil, List.dropLast_concat]

/-- Messages without the delimiter, each written with one after it, are the chunks. -/
theorem splitOn_flatMap_delimited {β : Type*} (f : β → List α) (ms : List β) (rest : List α)
    (h : ∀ m ∈ ms, d ∉ f m) :
    ((ms.flatMap fun m => f m ++ [d]) ++ rest).splitOn d = ms.map f ++ rest.splitOn d := by
  induction ms with
  | nil => rfl
  | cons m ms ih =>
    have hm : d ∉ f m := h m List.mem_cons_self
    have hms := ih fun m' hm' => h m' (List.mem_cons_of_mem m hm')
    rw [List.flatMap_cons, List.append_assoc, List.append_assoc, List.singleton_append,
      List.splitOn_append_cons_self_of_not_mem hm, hms]
    rfl

omit [LawfulBEq α] in
theorem sum_chunk_lengths (as : List α) :
    ((as.splitOn d).map (fun c => c.length + 1)).sum = as.length + 1 := by
  induction as with
  | nil => rfl
  | cons a as ih =>
    rw [List.splitOn_cons_eq_if_modifyHead]
    split_ifs
    · simp only [List.map_cons, List.sum_cons, List.length_nil, List.length_cons, ih]
      omega
    · obtain ⟨c, cs, hcons⟩ := List.exists_cons_of_ne_nil (List.splitOn_ne_nil d as)
      rw [hcons] at ih ⊢
      simp only [List.map_cons, List.sum_cons, List.modifyHead_cons, List.length_cons] at ih ⊢
      omega

omit [LawfulBEq α] in
theorem length_splitOn_le (as : List α) : (as.splitOn d).length ≤ as.length + 1 := by
  have hle := List.length_le_sum_of_one_le ((as.splitOn d).map fun c => c.length + 1) (by simp)
  rwa [sum_chunk_lengths, List.length_map] at hle

theorem closed_of_last_chunk {as : List α} (h : (as.splitOn d).getLast? = some []) :
    Closed d as := by
  induction as with
  | nil => exact .inl rfl
  | cons a as ih =>
    obtain ⟨c, cs, hcons⟩ := List.exists_cons_of_ne_nil (List.splitOn_ne_nil d as)
    rw [List.splitOn_cons_eq_if_modifyHead, hcons] at h
    right
    split_ifs at h with ha
    · rw [List.getLast?_cons_cons, ← hcons] at h
      rcases ih h with rfl | hlast
      · simpa using ha
      · simp [List.getLast?_cons, hlast]
    · rcases cs with _ | ⟨c', cs⟩
      · simp at h
      · rw [List.modifyHead_cons, List.getLast?_cons_cons] at h
        rcases ih (by rw [hcons, List.getLast?_cons_cons, h]) with rfl | hlast
        · simp at hcons
        · simp [List.getLast?_cons, hlast]

/-- Only a closed stream leaves the chunks of what follows it unchanged. -/
theorem splitOn_append_iff {as bs : List α} :
    (as ++ bs).splitOn d = (as.splitOn d).dropLast ++ bs.splitOn d ↔ Closed d as := by
  refine ⟨fun h => ?_, splitOn_append_of_closed bs⟩
  have hne := List.splitOn_ne_nil d as
  have hcat := List.dropLast_concat_getLast hne
  have hlengths := congrArg (fun cs => (cs.map fun c : List α => c.length + 1).sum) h
  have has := sum_chunk_lengths (d := d) as
  rw [← hcat] at has
  simp only [List.map_append, List.sum_append, sum_chunk_lengths, List.length_append,
    List.map_cons, List.map_nil, List.sum_cons, List.sum_nil] at hlengths has
  have hlast : ((as.splitOn d).getLast hne).length = 0 := by omega
  apply closed_of_last_chunk
  rw [List.getLast?_eq_some_getLast hne, List.length_eq_zero_iff.mp hlast]

/-- The chunk in progress at the end of a stream. -/
def inProgress (d : α) (as : List α) : List α := (as.splitOn d).getLast?.getD []

omit [LawfulBEq α] in
/-- What follows a stream completes the chunk in progress. -/
theorem splitOn_append (as bs : List α) :
    (as ++ bs).splitOn d =
      (as.splitOn d).dropLast ++ (bs.splitOn d).modifyHead (inProgress d as ++ ·) := by
  obtain ⟨e, es, hbs⟩ := List.exists_cons_of_ne_nil (List.splitOn_ne_nil d bs)
  rw [hbs, List.modifyHead_cons]
  induction as with
  | nil => exact hbs
  | cons a as ih =>
    obtain ⟨c, cs, hcons⟩ := List.exists_cons_of_ne_nil (List.splitOn_ne_nil d as)
    rw [List.cons_append, List.splitOn_cons_eq_if_modifyHead, ih, inProgress, inProgress,
      List.splitOn_cons_eq_if_modifyHead, hcons]
    split_ifs
    · rfl
    · cases cs with
      | nil => rfl
      | cons c' cs => rfl

theorem inProgress_eq_nil_iff {as : List α} : inProgress d as = [] ↔ Closed d as := by
  have hne := List.splitOn_ne_nil d as
  constructor
  · intro h
    apply closed_of_last_chunk
    rw [inProgress, List.getLast?_eq_some_getLast hne] at h
    rw [List.getLast?_eq_some_getLast hne]
    exact congrArg some h
  · rintro (rfl | h)
    · rfl
    · obtain ⟨init, rfl⟩ := List.getLast?_eq_some_iff.mp h
      rw [inProgress, List.splitOn_append_cons_self, List.splitOn_nil, List.getLast?_concat]
      rfl

end Delimited

end Cobs
