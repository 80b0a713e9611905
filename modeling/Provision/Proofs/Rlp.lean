/-
Provision.Proofs.Rlp — there is one way to write an item.

The length of a long content is written in the digits of a number to the
base 256. A number has one run of digits without leading zeros
(`bigEndian_number`), of at most eight where it is below 2^64
(`length_bigEndian_le_iff`). So a content has one header, and `piece?` takes
apart just the bytes that begin with a header and its content
(`written_of_piece?`, `piece?_written`). For that it must know how many bytes
there are; that two contents written whole differ needs no such bound, since
no header is shorter than that of a shorter content (`header_append_inj`).

The main statements are `decode_encode`, every item of less than 2^64 bytes
is read back, and `eq_encode_of_decode`, nothing but the bytes of an item is
read as the item.
-/
import Provision.Rlp

namespace Provision.Rlp

/-! ## Digits to the base 256 -/

theorem bigEndian_of_lt {n : Nat} (h : n < 256) : bigEndian n = [UInt8.ofNat n] := by
  rw [bigEndian, if_pos h]

theorem bigEndian_of_le {n : Nat} (h : 256 ≤ n) :
    bigEndian n = bigEndian (n / 256) ++ [UInt8.ofNat (n % 256)] := by
  rw [bigEndian, if_neg (Nat.not_lt.mpr h)]

theorem number_concat (b : List UInt8) (x : UInt8) :
    number (b ++ [x]) = 256 * number b + x.toNat := by
  rw [number, List.foldl_append]
  rfl

/-- The digits of a number spell it. -/
theorem number_bigEndian (n : Nat) : number (bigEndian n) = n := by
  induction n using Nat.strongRecOn with
  | ind n ih =>
    rcases Nat.lt_or_ge n 256 with h | h
    · rw [bigEndian_of_lt h]
      simp only [number, List.foldl_cons, List.foldl_nil, Nat.mul_zero, Nat.zero_add]
      exact UInt8.toNat_ofNat_of_lt' h
    · have hdigit : (UInt8.ofNat (n % 256)).toNat = n % 256 :=
        UInt8.toNat_ofNat_of_lt' (Nat.mod_lt n (by decide))
      rw [bigEndian_of_le h, number_concat, ih (n / 256) (by omega), hdigit]
      omega

theorem bigEndian_ne_nil (n : Nat) : bigEndian n ≠ [] := by
  rcases Nat.lt_or_ge n 256 with h | h
  · simp [bigEndian_of_lt h]
  · simp [bigEndian_of_le h]

theorem head?_append_of_ne_nil {a b : List UInt8} (h : a ≠ []) : (a ++ b).head? = a.head? := by
  obtain ⟨x, tail, rfl⟩ := List.exists_cons_of_ne_nil h
  rfl

/-- The first digit of a number is not zero. -/
theorem head?_bigEndian {n : Nat} (h : 0 < n) : (bigEndian n).head? ≠ some 0 := by
  induction n using Nat.strongRecOn with
  | ind n ih =>
    rcases Nat.lt_or_ge n 256 with hlt | hge
    · rw [bigEndian_of_lt hlt, List.head?_cons]
      intro h0
      have hn := congrArg UInt8.toNat (Option.some.inj h0)
      rw [UInt8.toNat_ofNat_of_lt' hlt] at hn
      exact absurd hn (Nat.ne_of_gt h)
    · rw [bigEndian_of_le hge, head?_append_of_ne_nil (bigEndian_ne_nil _)]
      exact ih (n / 256) (by omega) (by omega)

/-- A number has no other digits that do not begin with a zero. -/
theorem bigEndian_number {ds : List UInt8} (hne : ds ≠ []) (hhead : ds.head? ≠ some 0) :
    bigEndian (number ds) = ds := by
  induction hlen : ds.length generalizing ds with
  | zero => exact absurd (List.length_eq_zero_iff.mp hlen) hne
  | succ k ih =>
    obtain ⟨init, x, rfl⟩ := (List.eq_nil_or_concat ds).resolve_left hne
    rw [List.concat_eq_append] at hne hhead hlen ⊢
    have hx := x.toNat_lt
    rw [number_concat]
    by_cases hinit : init = []
    · subst hinit
      have hsingle : 256 * number [] + x.toNat = x.toNat := Nat.zero_add _
      rw [hsingle, bigEndian_of_lt hx, UInt8.ofNat_toNat]
      rfl
    · rw [head?_append_of_ne_nil hinit] at hhead
      have hrec := ih hinit hhead (by simpa using hlen)
      have hpos : number init ≠ 0 := by
        intro h0
        -- Zero has the digit zero, which no run of digits begins with.
        rw [h0, bigEndian_of_lt (by decide)] at hrec
        exact hhead (by rw [← hrec]; rfl)
      have hq : (256 * number init + x.toNat) / 256 = number init := by omega
      have hr : (256 * number init + x.toNat) % 256 = x.toNat := by omega
      rw [bigEndian_of_le (by omega), hq, hr, hrec, UInt8.ofNat_toNat]

theorem length_bigEndian_le_iff {n k : Nat} (hk : 0 < k) :
    (bigEndian n).length ≤ k ↔ n < 256 ^ k := by
  induction k generalizing n with
  | zero => exact absurd hk (Nat.lt_irrefl 0)
  | succ k ih =>
    rcases Nat.lt_or_ge n 256 with h | h
    · have hpow : 256 ^ 1 ≤ 256 ^ (k + 1) := Nat.pow_le_pow_right (by decide) (by omega)
      rw [bigEndian_of_lt h, List.length_singleton]
      omega
    · rw [bigEndian_of_le h, List.length_append, List.length_singleton, Nat.add_le_add_iff_right]
      cases k with
      | zero =>
        have hne := bigEndian_ne_nil (n / 256)
        rw [← List.length_pos_iff] at hne
        omega
      | succ k =>
        rw [ih (Nat.succ_pos k), Nat.pow_succ 256 (k + 1), Nat.div_lt_iff_lt_mul (by decide)]

theorem length_bigEndian_mono {m n : Nat} (h : m ≤ n) :
    (bigEndian m).length ≤ (bigEndian n).length := by
  have hpos : 0 < (bigEndian n).length := List.length_pos_iff.mpr (bigEndian_ne_nil n)
  have hn : n < 256 ^ (bigEndian n).length := (length_bigEndian_le_iff hpos).mp (Nat.le_refl _)
  exact (length_bigEndian_le_iff hpos).mpr (Nat.lt_of_le_of_lt h hn)

/-! ## Headers -/

theorem header_of_lt {base length : Nat} (h : length < 56) :
    header base length = [UInt8.ofNat (base + length)] := by
  unfold header
  rw [if_pos h]

theorem header_of_le {base length : Nat} (h : 56 ≤ length) :
    header base length =
      UInt8.ofNat (base + 55 + (bigEndian length).length) :: bigEndian length := by
  unfold header
  rw [if_neg (Nat.not_lt.mpr h)]

theorem header_ne_nil (base length : Nat) : header base length ≠ [] := by
  rcases Nat.lt_or_ge length 56 with h | h
  · simp [header_of_lt h]
  · simp [header_of_le h]

theorem length_header_mono (base : Nat) {m n : Nat} (h : m ≤ n) :
    (header base m).length ≤ (header base n).length := by
  rcases Nat.lt_or_ge m 56 with hm | hm
  · rw [header_of_lt hm]
    exact List.length_pos_iff.mpr (header_ne_nil base n)
  · have hlen := length_bigEndian_mono h
    rw [header_of_le hm, header_of_le (Nat.le_trans hm h), List.length_cons, List.length_cons]
    omega

/-- A content is told by what is written of it, however long it is: a longer
one has no shorter header, so that two contents of one text have one length. -/
theorem header_append_inj {base : Nat} {a b : List UInt8}
    (h : header base a.length ++ a = header base b.length ++ b) : a = b := by
  have htotal := congrArg List.length h
  rw [List.length_append, List.length_append] at htotal
  have hlen : a.length = b.length := by
    rcases Nat.le_total a.length b.length with hle | hle
    · have hmono := length_header_mono base hle
      omega
    · have hmono := length_header_mono base hle
      omega
  rw [hlen] at h
  exact List.append_cancel_left h

theorem encodeBytes_singleton {x : UInt8} (h : x < 0x80) : encodeBytes [x] = [x] := by
  rw [encodeBytes, if_pos h]

/-- All other byte strings have a header. -/
theorem encodeBytes_of_header {b : List UInt8} (h : ∀ x, b = [x] → ¬ x < 0x80) :
    encodeBytes b = header bytesBase b.length ++ b := by
  match b with
  | [] => rfl
  | [x] => rw [encodeBytes, if_neg (h x rfl), List.length_singleton]
  | _ :: _ :: _ => rfl

theorem encodeBytes_cases (b : List UInt8) :
    (∃ x, b = [x] ∧ x < 0x80) ∨ ∀ x, b = [x] → ¬ x < 0x80 := by
  by_cases h : ∃ x, b = [x] ∧ x < 0x80
  · exact .inl h
  · right
    intro x hb hx
    exact h ⟨x, hb, hx⟩

theorem length_le_encodeBytes (b : List UInt8) : b.length ≤ (encodeBytes b).length := by
  rcases encodeBytes_cases b with ⟨x, rfl, hx⟩ | h
  · exact Nat.le_of_eq (by rw [encodeBytes_singleton hx])
  · rw [encodeBytes_of_header h, List.length_append]
    exact Nat.le_add_left _ _

theorem encodeBytes_ne_nil (b : List UInt8) : encodeBytes b ≠ [] := by
  rcases encodeBytes_cases b with ⟨x, rfl, hx⟩ | h
  · simp [encodeBytes_singleton hx]
  · rw [encodeBytes_of_header h]
    simp [header_ne_nil]

/-! ## The first item of bytes -/

theorem take?_eq_some_iff {n : Nat} {b content rest : List UInt8} :
    take? n b = some (content, rest) ↔ content.length = n ∧ b = content ++ rest := by
  unfold take?
  constructor
  · intro h
    split at h
    · rename_i hn
      cases h
      exact ⟨List.length_take_of_le hn, (List.take_append_drop n b).symm⟩
    · cases h
  · rintro ⟨rfl, rfl⟩
    rw [if_pos (by simp), List.take_left, List.drop_left]

/-- The digits of a length and the content behind them are taken when they
are those of the content's own length, and that is a long one. -/
theorem takeLong?_eq_some_iff {k : Nat} (hk : 0 < k) {b content rest : List UInt8} :
    takeLong? k b = some (content, rest) ↔
      56 ≤ content.length ∧ (bigEndian content.length).length = k ∧
        b = bigEndian content.length ++ (content ++ rest) := by
  simp only [takeLong?, Option.bind_eq_bind, Option.bind_eq_some_iff, Prod.exists,
    take?_eq_some_iff]
  constructor
  · rintro ⟨ds, tail, ⟨hds, rfl⟩, h⟩
    split at h
    · cases h
    · rename_i hcond
      obtain ⟨hlen, rfl⟩ := take?_eq_some_iff.mp h
      rw [not_or, ← hlen] at hcond
      have hne : ds ≠ [] := List.length_pos_iff.mp (hds ▸ hk)
      have hdigits : bigEndian content.length = ds := by
        rw [hlen, bigEndian_number hne hcond.1]
      rw [hdigits]
      exact ⟨Nat.not_lt.mp hcond.2, hds, rfl⟩
  · rintro ⟨hlong, hlen, rfl⟩
    refine ⟨bigEndian content.length, content ++ rest, ⟨hlen, rfl⟩, ?_⟩
    rw [if_neg, take?_eq_some_iff, number_bigEndian]
    · exact ⟨rfl, rfl⟩
    · rw [number_bigEndian, not_or]
      exact ⟨head?_bigEndian (by omega), Nat.not_lt.mpr hlong⟩

/-- The content of a piece. -/
def Piece.content : Piece → List UInt8
  | .bytes content _ => content
  | .list content _ => content

/-- The bytes that begin with a piece. -/
def Piece.written : Piece → List UInt8
  | .bytes content rest => encodeBytes content ++ rest
  | .list content rest => header listBase content.length ++ (content ++ rest)

/-! The kinds of first bytes. -/

theorem piece?_selfByte {x : UInt8} {b : List UInt8} (h : x.toNat < 0x80) :
    piece? (x :: b) = some (.bytes [x] b) := by
  simp only [piece?]
  rw [if_pos h]

theorem piece?_shortBytes {x : UInt8} {b : List UInt8} (h : 0x80 ≤ x.toNat ∧ x.toNat < 0xB8) :
    piece? (x :: b) = (take? (x.toNat - 0x80) b).bind fun p =>
      match p.1 with
      | [y] => if y < 0x80 then none else some (.bytes [y] p.2)
      | content => some (.bytes content p.2) := by
  simp only [piece?]
  rw [if_neg (by omega), if_pos h.2]
  rfl

theorem piece?_longBytes {x : UInt8} {b : List UInt8} (h : 0xB8 ≤ x.toNat ∧ x.toNat < 0xC0) :
    piece? (x :: b) = (takeLong? (x.toNat - 0xB7) b).bind fun p => some (.bytes p.1 p.2) := by
  simp only [piece?]
  rw [if_neg (by omega), if_neg (by omega), if_pos h.2]
  rfl

theorem piece?_shortList {x : UInt8} {b : List UInt8} (h : 0xC0 ≤ x.toNat ∧ x.toNat < 0xF8) :
    piece? (x :: b) = (take? (x.toNat - 0xC0) b).bind fun p => some (.list p.1 p.2) := by
  simp only [piece?]
  rw [if_neg (by omega), if_neg (by omega), if_neg (by omega), if_pos h.2]
  rfl

theorem piece?_longList {x : UInt8} {b : List UInt8} (h : 0xF8 ≤ x.toNat) :
    piece? (x :: b) = (takeLong? (x.toNat - 0xF7) b).bind fun p => some (.list p.1 p.2) := by
  simp only [piece?]
  rw [if_neg (by omega), if_neg (by omega), if_neg (by omega), if_neg (by omega)]
  rfl

theorem cons_eq_short {base : Nat} {x : UInt8} {content rest : List UInt8}
    (hx : x.toNat = base + content.length) (h : content.length < 56) :
    x :: (content ++ rest) = header base content.length ++ (content ++ rest) := by
  rw [header_of_lt h, ← hx, UInt8.ofNat_toNat, List.singleton_append]

theorem cons_eq_long {base : Nat} {x : UInt8} {content rest : List UInt8}
    (hx : x.toNat = base + 55 + (bigEndian content.length).length) (h : 56 ≤ content.length) :
    x :: (bigEndian content.length ++ (content ++ rest)) =
      header base content.length ++ (content ++ rest) := by
  rw [header_of_le h, ← hx, UInt8.ofNat_toNat, List.cons_append]

theorem length_bigEndian_le_eight_iff {n : Nat} : (bigEndian n).length ≤ 8 ↔ n < 2 ^ 64 :=
  length_bigEndian_le_iff (by decide)

/-- **Strict headers**: a piece is taken from no bytes but those with the
one header of its content. -/
theorem written_of_piece? {b : List UInt8} {p : Piece} (h : piece? b = some p) :
    p.content.length < 2 ^ 64 ∧ b = p.written := by
  cases b with
  | nil => cases h
  | cons x tail =>
    have hx := x.toNat_lt
    rcases Nat.lt_or_ge x.toNat 0x80 with h80 | h80
    · rw [piece?_selfByte h80] at h
      cases h
      have hx' : x < 0x80 := UInt8.lt_iff_toNat_lt.mpr h80
      exact ⟨by simp [Piece.content], by simp [Piece.written, encodeBytes_singleton hx']⟩
    rcases Nat.lt_or_ge x.toNat 0xB8 with hB8 | hB8
    · rw [piece?_shortBytes ⟨h80, hB8⟩] at h
      obtain ⟨⟨content, rest⟩, htake, hpiece⟩ := Option.bind_eq_some_iff.mp h
      obtain ⟨hlen, rfl⟩ := take?_eq_some_iff.mp htake
      have hp : p = .bytes content rest ∧ ∀ y, content = [y] → ¬ y < 0x80 := by
        split at hpiece
        · rename_i y hy
          split at hpiece
          · cases hpiece
          · rename_i hge
            cases hpiece
            exact ⟨by rw [← hy], fun z hz => by cases hy.symm.trans hz; exact hge⟩
        · rename_i hne
          cases hpiece
          exact ⟨rfl, fun y hy => absurd hy (hne y)⟩
      obtain ⟨rfl, hc⟩ := hp
      refine ⟨by simp only [Piece.content]; omega, ?_⟩
      rw [Piece.written, encodeBytes_of_header hc, List.append_assoc]
      exact cons_eq_short (by rw [bytesBase]; omega) (by omega)
    rcases Nat.lt_or_ge x.toNat 0xC0 with hC0 | hC0
    · rw [piece?_longBytes ⟨hB8, hC0⟩] at h
      obtain ⟨⟨content, rest⟩, htake, hpiece⟩ := Option.bind_eq_some_iff.mp h
      obtain ⟨hlong, hlen, rfl⟩ := (takeLong?_eq_some_iff (by omega)).mp htake
      cases hpiece
      have hc : ∀ y, content = [y] → ¬ y < 0x80 := by
        rintro y rfl
        simp at hlong
      refine ⟨length_bigEndian_le_eight_iff.mp (by simp only [Piece.content]; omega), ?_⟩
      rw [Piece.written, encodeBytes_of_header hc, List.append_assoc]
      exact cons_eq_long (by rw [bytesBase]; omega) hlong
    rcases Nat.lt_or_ge x.toNat 0xF8 with hF8 | hF8
    · rw [piece?_shortList ⟨hC0, hF8⟩] at h
      obtain ⟨⟨content, rest⟩, htake, hpiece⟩ := Option.bind_eq_some_iff.mp h
      obtain ⟨hlen, rfl⟩ := take?_eq_some_iff.mp htake
      cases hpiece
      refine ⟨by simp only [Piece.content]; omega, ?_⟩
      exact cons_eq_short (by rw [listBase]; omega) (by omega)
    · rw [piece?_longList hF8] at h
      obtain ⟨⟨content, rest⟩, htake, hpiece⟩ := Option.bind_eq_some_iff.mp h
      obtain ⟨hlong, hlen, rfl⟩ := (takeLong?_eq_some_iff (by omega)).mp htake
      cases hpiece
      refine ⟨length_bigEndian_le_eight_iff.mp (by simp only [Piece.content]; omega), ?_⟩
      exact cons_eq_long (by rw [listBase]; omega) hlong

theorem toNat_short (base : Nat) {n : Nat} (hbase : base ≤ listBase) (h : n < 56) :
    (UInt8.ofNat (base + n)).toNat = base + n :=
  UInt8.toNat_ofNat_of_lt' (Nat.lt_of_le_of_lt (Nat.add_le_add hbase (Nat.le_of_lt_succ h))
    (by decide))

theorem toNat_long (base : Nat) {k : Nat} (hbase : base ≤ listBase) (h : k ≤ 8) :
    (UInt8.ofNat (base + 55 + k)).toNat = base + 55 + k :=
  UInt8.toNat_ofNat_of_lt' (Nat.lt_of_le_of_lt
    (Nat.add_le_add (Nat.add_le_add_right hbase 55) h) (by decide))

theorem take?_append (a b : List UInt8) : take? a.length (a ++ b) = some (a, b) :=
  take?_eq_some_iff.mpr ⟨rfl, rfl⟩

theorem takeLong?_append {content : List UInt8} (h : 56 ≤ content.length) (rest : List UInt8) :
    takeLong? (bigEndian content.length).length (bigEndian content.length ++ (content ++ rest)) =
      some (content, rest) :=
  (takeLong?_eq_some_iff (List.length_pos_iff.mpr (bigEndian_ne_nil _))).mpr ⟨h, rfl, rfl⟩

/-- A content behind its header is taken from the bytes. -/
theorem piece?_written {p : Piece} (h : p.content.length < 2 ^ 64) :
    piece? p.written = some p := by
  have hdigits := length_bigEndian_le_eight_iff.mpr h
  have hpos := List.length_pos_iff.mpr (bigEndian_ne_nil p.content.length)
  cases p with
  | bytes content rest =>
    simp only [Piece.content] at hdigits hpos
    rcases encodeBytes_cases content with ⟨x, rfl, hx⟩ | hc
    · rw [Piece.written, encodeBytes_singleton hx]
      exact piece?_selfByte (UInt8.lt_iff_toNat_lt.mp hx)
    rw [Piece.written, encodeBytes_of_header hc, List.append_assoc]
    rcases Nat.lt_or_ge content.length 56 with hshort | hlong
    · have hx := toNat_short 0x80 (by decide) hshort
      rw [header_of_lt hshort, List.singleton_append, bytesBase, piece?_shortBytes (by omega), hx,
        Nat.add_sub_cancel_left, take?_append, Option.bind_some]
      split
      · rename_i y hy
        rw [if_neg (hc y hy), ← hy]
      · rfl
    · have hx := toNat_long 0x80 (by decide) hdigits
      rw [header_of_le hlong, List.cons_append, bytesBase, piece?_longBytes (by omega), hx,
        Nat.add_sub_cancel_left, takeLong?_append hlong, Option.bind_some]
  | list content rest =>
    simp only [Piece.content] at hdigits hpos
    rw [Piece.written]
    rcases Nat.lt_or_ge content.length 56 with hshort | hlong
    · have hx := toNat_short 0xC0 (by decide) hshort
      rw [header_of_lt hshort, List.singleton_append, listBase, piece?_shortList (by omega), hx,
        Nat.add_sub_cancel_left, take?_append, Option.bind_some]
    · have hx := toNat_long 0xC0 (by decide) hdigits
      rw [header_of_le hlong, List.cons_append, listBase, piece?_longList (by omega), hx,
        Nat.add_sub_cancel_left, takeLong?_append hlong, Option.bind_some]

/-! ## Items -/

theorem encode_ne_nil (item : Rlp) : encode item ≠ [] := by
  cases item with
  | bytes b =>
    rw [encode]
    exact encodeBytes_ne_nil b
  | list items => simp [encode, header_ne_nil]

theorem encode_list (items : List Rlp) :
    encode (.list items) =
      header listBase (encodeItems items).length ++ encodeItems items := by
  rw [encode]

/-- What the readers take for items are the bytes of the items. -/
theorem encode_of_read (fuel : Nat) :
    (∀ b item rest, readItem fuel b = some (item, rest) → b = encode item ++ rest) ∧
      ∀ b items, readItems fuel b = some items → b = encodeItems items := by
  induction fuel with
  | zero =>
    constructor
    · intro b item rest h
      cases h
    · intro b items h
      cases b with
      | nil =>
        cases h
        rfl
      | cons x tail => cases h
  | succ fuel ih =>
    constructor
    · intro b item rest h
      rw [readItem] at h
      split at h
      · cases h
      · rename_i content rest' hp
        cases h
        rw [(written_of_piece? hp).2, Piece.written, encode]
      · rename_i content rest' hp
        obtain ⟨items, hitems, heq⟩ := Option.map_eq_some_iff.mp h
        cases heq
        rw [(written_of_piece? hp).2, Piece.written, encode_list, ← ih.2 content items hitems,
          List.append_assoc]
    · intro b items h
      cases b with
      | nil =>
        rw [readItems] at h
        cases h
        rfl
      | cons x tail =>
        rw [readItems] at h
        · split at h
          · cases h
          · rename_i item rest hitem
            obtain ⟨items', hitems, rfl⟩ := Option.map_eq_some_iff.mp h
            rw [encodeItems, ← ih.2 rest items' hitems]
            exact ih.1 (x :: tail) item rest hitem
        · simp

/-- The readers take items for what they are, where the bound on the depth
is twice the number of their bytes. -/
theorem read_encode (fuel : Nat) :
    (∀ item rest, (encode item).length < 2 ^ 64 → 2 * (encode item).length ≤ fuel + 1 →
      readItem fuel (encode item ++ rest) = some (item, rest)) ∧
    ∀ items, (encodeItems items).length < 2 ^ 64 → 2 * (encodeItems items).length ≤ fuel →
      readItems fuel (encodeItems items) = some items := by
  induction fuel with
  | zero =>
    constructor
    · intro item rest _ h
      have hpos := List.length_pos_iff.mpr (encode_ne_nil item)
      omega
    · intro items _ h
      cases items with
      | nil => rfl
      | cons item items =>
        have hpos := List.length_pos_iff.mpr (encode_ne_nil item)
        rw [encodeItems, List.length_append] at h
        omega
  | succ fuel ih =>
    constructor
    · intro item rest hsize hfuel
      cases item with
      | bytes content =>
        have hle := length_le_encodeBytes content
        rw [encode] at hsize
        have hp := piece?_written (p := .bytes content rest)
          (by simp only [Piece.content]; omega)
        rw [Piece.written] at hp
        rw [encode, readItem, hp]
      | list items =>
        have hpos := List.length_pos_iff.mpr (header_ne_nil listBase (encodeItems items).length)
        rw [encode_list, List.length_append] at hsize hfuel
        have hp := piece?_written (p := .list (encodeItems items) rest)
          (by simp only [Piece.content]; omega)
        rw [Piece.written, ← List.append_assoc, ← encode_list] at hp
        rw [readItem, hp]
        simp only
        rw [ih.2 items (by omega) (by omega), Option.map_some]
    · intro items hsize hfuel
      cases items with
      | nil => rfl
      | cons item items =>
        have hpos := List.length_pos_iff.mpr (encode_ne_nil item)
        rw [encodeItems, List.length_append] at hsize hfuel
        obtain ⟨x, tail, hcons⟩ := List.exists_cons_of_ne_nil
          (List.append_ne_nil_of_left_ne_nil (encode_ne_nil item) (encodeItems items))
        have hitem := ih.1 item (encodeItems items) (by omega) (by omega)
        rw [encodeItems, hcons, readItems, ← hcons, hitem]
        · simp only
          rw [ih.2 items (by omega) (by omega), Option.map_some]
        · simp

/-- **Round trip**: an item of less than 2^64 bytes is read back. -/
theorem decode_encode {item : Rlp} (h : (encode item).length < 2 ^ 64) :
    decode (encode item) = some item := by
  have hread := (read_encode (2 * (encode item).length)).1 item [] h (Nat.le_succ _)
  rw [List.append_nil] at hread
  rw [decode, hread]

/-- **Strictness**: nothing but the bytes of an item is read as the item. -/
theorem eq_encode_of_decode {b : List UInt8} {item : Rlp} (h : decode b = some item) :
    b = encode item := by
  unfold decode at h
  split at h
  · rename_i item' hread
    cases h
    rw [(encode_of_read _).1 b item [] hread, List.append_nil]
  · cases h

end Provision.Rlp
