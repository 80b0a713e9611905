/-
Provision.Proofs.Genesis.Prices — the registry prices every block right.

A builtin contract is told with the prices of the forks, each keyed by the
block from which it holds. The forks are bound one after the other, so of
two prices from one block on the later fork's is kept, which is right where
the forks are in order: what holds at a block is then the last price of the
forks up to it (`holdsAt_ofList`). The keys of a document are hexadecimal
texts, so the prices have to be read from it before they mean anything
(`readPrices?`); nothing is lost on the way, be the keys in the order of
their blocks (`readPrices?_encode`) or of their characters
(`readPrices?_canonical`). `registry_prices_every_block` says what each of
the nine contracts costs at every block.
-/
import Mathlib.Data.List.Nodup
import Provision.Proofs.Genesis.Schedules
import Provision.Proofs.Json.RoundTrip

namespace Provision.Builtin

open Json

/-! ## What holds at a block -/

/-- The rows, each of which begins at a number, have this value at a block:
that of the row that begins last up to the block, and none before the first
row begins. -/
def HoldsAt {ν : Type} (rows : List (Nat × ν)) (block : Nat) : Option ν → Prop
  | some v => ∃ start, (start, v) ∈ rows ∧ start ≤ block ∧ ∀ e ∈ rows, e.1 ≤ block → e.1 ≤ start
  | none => ∀ e ∈ rows, block < e.1

/-- The prices of a contract with the blocks at which they begin. -/
def prices (b : Builtin) : List (Nat × Price) :=
  b.pricing.entries.map fun e => (e.1.toNat, e.2.price)

theorem HoldsAt.of_perm {ν : Type} {rows rows' : List (Nat × ν)} (h : rows.Perm rows')
    {block : Nat} {v : Option ν} (hv : HoldsAt rows' block v) : HoldsAt rows block v := by
  cases v with
  | none => exact fun e he => hv e (h.mem_iff.mp he)
  | some v =>
    obtain ⟨start, hmem, hle, hlast⟩ := hv
    exact ⟨start, h.mem_iff.mpr hmem, hle, fun e he => hlast e (h.mem_iff.mp he)⟩

/-- Where no two rows begin at one number, a block has one value. -/
theorem HoldsAt.unique {ν : Type} {rows : List (Nat × ν)} (h : (rows.map Prod.fst).Nodup)
    {block : Nat} {v w : Option ν} (hv : HoldsAt rows block v) (hw : HoldsAt rows block w) :
    v = w := by
  cases v with
  | none =>
    cases w with
    | none => rfl
    | some w =>
      obtain ⟨start, hmem, hle, -⟩ := hw
      exact absurd (hv _ hmem) (Nat.not_lt.mpr hle)
  | some v =>
    obtain ⟨start, hmem, hle, hlast⟩ := hv
    cases w with
    | none => exact absurd (hw _ hmem) (Nat.not_lt.mpr hle)
    | some w =>
      obtain ⟨start', hmem', hle', hlast'⟩ := hw
      have hstart : start = start' := Nat.le_antisymm (hlast' _ hmem hle) (hlast _ hmem' hle')
      subst hstart
      exact congrArg some (Prod.mk.inj (List.inj_on_of_nodup_map h hmem hmem' rfl)).2

/-! ## Prices in the order of the forks -/

theorem mem_prices {b : Builtin} {start : Nat} {p : Price} :
    (start, p) ∈ b.prices ↔
      ∃ block entry, b.pricing.get? block = some entry ∧ block.toNat = start ∧ entry.price = p := by
  simp [prices, OrderedMap.get?_eq_some_iff]

theorem ascending_prices (b : Builtin) : (b.prices.map Prod.fst).Pairwise (· < ·) := by
  rw [prices, List.map_map]
  refine List.pairwise_map.mpr (b.pricing.sorted.imp fun hlt => ?_)
  exact UInt64.lt_iff_toNat_lt.mp (Std.compare_eq_lt.mp hlt)

theorem nodup_prices (b : Builtin) : (b.prices.map Prod.fst).Nodup :=
  b.ascending_prices.imp Nat.ne_of_lt

/-- The last of the entries up to a block is the last one of its own key. -/
theorem find?_key_of_find?_le {l : List (UInt64 × PriceEntry)} {block : Nat}
    {e : UInt64 × PriceEntry} (h : (l.find? fun x => x.1.toNat ≤ block) = some e) :
    (l.find? fun x => x.1 = e.1) = some e := by
  have hle : e.1.toNat ≤ block := by simpa using List.find?_some h
  induction l with
  | nil => exact nomatch h
  | cons x l ih =>
    by_cases hx : x.1.toNat ≤ block
    · rw [List.find?_cons_of_pos (by simpa using hx)] at h
      cases h
      rw [List.find?_cons_of_pos (by simp)]
    · rw [List.find?_cons_of_neg (by simpa using hx)] at h
      have hne : x.1 ≠ e.1 := fun heq => hx (heq ▸ hle)
      rw [List.find?_cons_of_neg (by simpa using hne)]
      exact ih h

/-- In a list in descending order the first entry up to a block is the
greatest. -/
theorem le_of_find?_le {l : List (UInt64 × PriceEntry)}
    (horder : l.Pairwise fun a b => b.1 ≤ a.1) {block : Nat} {e : UInt64 × PriceEntry}
    (h : (l.find? fun x => x.1.toNat ≤ block) = some e) :
    ∀ x ∈ l, x.1.toNat ≤ block → x.1 ≤ e.1 := by
  induction l with
  | nil => exact nomatch h
  | cons y l ih =>
    obtain ⟨hy, horder⟩ := List.pairwise_cons.mp horder
    intro x hx hle
    by_cases hblock : y.1.toNat ≤ block
    · rw [List.find?_cons_of_pos (by simpa using hblock)] at h
      cases h
      rcases List.mem_cons.mp hx with rfl | hx
      · exact UInt64.le_refl _
      · exact hy x hx
    · rw [List.find?_cons_of_neg (by simpa using hblock)] at h
      rcases List.mem_cons.mp hx with rfl | hx
      · exact absurd hle hblock
      · exact ih horder h x hx hle

/-- **Later forks win**: where prices are bound in the order of their blocks,
the last one up to a block is what holds there. -/
theorem holdsAt_ofList (name : String) {l : List (UInt64 × PriceEntry)}
    (horder : l.Pairwise fun a b => a.1 ≤ b.1) (block : Nat) :
    HoldsAt (prices ⟨name, .ofList l⟩) block
      ((l.filter fun e => e.1.toNat ≤ block).getLast?.map fun e => e.2.price) := by
  have hlist : ∀ x ∈ prices ⟨name, .ofList l⟩, ∃ e ∈ l, x = (e.1.toNat, e.2.price) := by
    intro x hx
    obtain ⟨e, he, rfl⟩ := List.mem_map.mp hx
    exact ⟨e, OrderedMap.mem_of_mem_ofList he, rfl⟩
  rw [List.getLast?_filter]
  cases hlast : l.reverse.find? fun e => e.1.toNat ≤ block with
  | none =>
    intro x hx
    obtain ⟨e, he, rfl⟩ := hlist x hx
    simpa using List.find?_eq_none.mp hlast e (List.mem_reverse.mpr he)
  | some e =>
    have hget : (OrderedMap.ofList l).get? e.1 = some e.2 := by
      rw [OrderedMap.get?_ofList, find?_key_of_find?_le hlast, Option.map_some]
    refine ⟨e.1.toNat, mem_prices.mpr ⟨e.1, e.2, hget, rfl, rfl⟩,
      by simpa using List.find?_some hlast, ?_⟩
    intro x hx hle
    obtain ⟨y, hy, rfl⟩ := hlist x hx
    exact le_of_find?_le (List.pairwise_reverse.mpr horder) hlast y (List.mem_reverse.mpr hy) hle

/-- The price that is looked up at a block holds there. -/
theorem holdsAt_priceAt? (b : Builtin) (block : UInt64) :
    HoldsAt b.prices block.toNat (b.priceAt? block) := by
  have horder : b.pricing.entries.Pairwise fun x y => x.1 ≤ y.1 :=
    b.pricing.sorted.imp fun hlt => UInt64.le_of_lt (Std.compare_eq_lt.mp hlt)
  have hholds := holdsAt_ofList b.name horder block.toNat
  rwa [OrderedMap.ofList_entries] at hholds

/-! ## Reading the prices of a document -/

/-- The price that an object spells. -/
def readPrice? : Json → Option Price
  | .obj [("linear", .obj [("base", .nat base), ("word", .nat word)])] => some (.linear base word)
  | .obj [("modexp", .obj [("divisor", .nat divisor)])] => some (.exponentiation divisor)
  | .obj [("modexp2565", .obj [])] => some .repricedExponentiation
  | .obj [("alt_bn128_const_operations", .obj [("price", .nat price)])] =>
    some (.curveOperation price)
  | .obj [("alt_bn128_pairing", .obj [("base", .nat base), ("pair", .nat pair)])] =>
    some (.curvePairing base pair)
  | .obj [("blake2_f", .obj [("gas_per_round", .nat gas)])] => some (.compression gas)
  | _ => none

/-- The number that a member is keyed by and the price that it has. -/
def readPriceRow? (e : String × Json) : Option (Nat × Price) :=
  (Genesis.hexNumber? e.1).bind fun start =>
    ((e.2.get? "price").bind readPrice?).map fun p => (start, p)

/-- The prices of a contract, as they stand in its object. -/
def readPrices? (j : Json) : Option (List (Nat × Price)) :=
  (j.get? "pricing").bind fun pricing => pricing.members.mapM readPriceRow?

/-- Elements that are read one by one are read in any order. -/
theorem exists_mapM_of_perm {α β : Type} {f : α → Option β} {l l' : List α} (h : l.Perm l') :
    ∀ {r : List β}, l'.mapM f = some r → ∃ r', l.mapM f = some r' ∧ r'.Perm r := by
  induction h with
  | nil => exact fun {r} hr => ⟨r, hr, .refl r⟩
  | cons a _ ih =>
    intro r hr
    simp only [List.mapM_cons, Option.bind_eq_bind, Option.bind_eq_some_iff, Option.pure_def,
      Option.some.injEq] at hr ⊢
    obtain ⟨b, hb, t, ht, rfl⟩ := hr
    obtain ⟨t', ht', hperm⟩ := ih ht
    exact ⟨b :: t', ⟨b, hb, t', ht', rfl⟩, hperm.cons b⟩
  | swap a a' l =>
    intro r hr
    simp only [List.mapM_cons, Option.bind_eq_bind, Option.bind_eq_some_iff, Option.pure_def,
      Option.some.injEq] at hr ⊢
    obtain ⟨b, hb, _, ⟨b', hb', t, ht, rfl⟩, rfl⟩ := hr
    exact ⟨b' :: b :: t, ⟨b', hb', b :: t, ⟨b, hb, t, ht, rfl⟩, rfl⟩, .swap b b' t⟩
  | trans _ _ ih ih' =>
    intro r hr
    obtain ⟨t, ht, hperm⟩ := ih' hr
    obtain ⟨t', ht', hperm'⟩ := ih ht
    exact ⟨t', ht', hperm'.trans hperm⟩

theorem readPrice?_encodePrice (p : Price) : readPrice? (encodePrice p) = some p := by
  cases p <;> rfl

/-- A row is read from the price of its member, whatever else the member has. -/
theorem readPriceRow?_of_get? {start : Nat} {j : Json} {p : Price}
    (h : j.get? "price" = some (encodePrice p)) :
    readPriceRow? (Hex.numberText start, j) = some (start, p) := by
  simp only [readPriceRow?, Genesis.hexNumber?_numberText, h, Option.bind_some,
    readPrice?_encodePrice, Option.map_some]

/-- The rows that are read from a contract are its own, in their order. -/
theorem readPrices?_encode (b : Builtin) : readPrices? b.encode = some b.prices := by
  change (b.pricing.entries.map fun e => (Hex.numberText e.1.toNat, encodeEntry e.2)).mapM
    readPriceRow? = some b.prices
  rw [List.mapM_map]
  refine Genesis.mapM_eq_some_map fun e _ => ?_
  rw [Function.comp_apply]
  exact readPriceRow?_of_get? (get?_encodeEntry_price e.2)

/-- In a document in canonical form the rows stand in the order of the
characters of their keys. -/
theorem readPrices?_canonical (b : Builtin) :
    ∃ rows, readPrices? b.encode.canonical = some rows ∧ rows.Perm b.prices := by
  have hdistinct := ((distinctKeys_obj _).mp
    (distinctKeys_ofMap blockKey_injective distinctKeys_encodeEntry b.pricing)).1
  have hmembers := members_canonical_perm hdistinct
  have hread : (b.pricing.entries.map fun e =>
      (Hex.numberText e.1.toNat, (encodeEntry e.2).canonical)).mapM readPriceRow? =
        some b.prices := by
    rw [List.mapM_map]
    refine Genesis.mapM_eq_some_map fun e _ => readPriceRow?_of_get? ?_
    rw [get?_canonical (distinctKeys_encodeEntry e.2), get?_encodeEntry_price, Option.map_some,
      canonical_eq_self _ (isCanonical_encodePrice e.2.price)]
  rw [List.map_map] at hmembers
  obtain ⟨rows, hrows, hperm⟩ := exists_mapM_of_perm hmembers hread
  refine ⟨rows, ?_, hperm⟩
  rw [readPrices?, get?_canonical b.distinctKeys_encode, encode_eq]
  exact hrows

/-! ## What a contract charges -/

/-- A contract has these prices: the last that begins up to a block holds
there, the look-up finds it, and a text of the contract tells the same rows
in ascending order, as does its place in a document in canonical form but
for the order. -/
structure Charges (b : Builtin) (price : Nat → Option Price) : Prop where
  held : ∀ block, HoldsAt b.prices block (price block)
  found : ∀ block : UInt64, b.priceAt? block = price block.toNat
  ascending : (b.prices.map Prod.fst).Pairwise (· < ·)
  /-- No row is lost and no two are merged. -/
  told : (Json.parse? b.encode.compact).bind readPrices? = some b.prices
  toldInDocument : ∃ rows, readPrices? b.encode.canonical = some rows ∧ rows.Perm b.prices ∧
    ∀ block, HoldsAt rows block (price block)

theorem charges_of_holdsAt {b : Builtin} {price : Nat → Option Price}
    (h : ∀ block, HoldsAt b.prices block (price block)) : b.Charges price := by
  constructor
  case held => exact h
  case found => exact fun block => (b.holdsAt_priceAt? block).unique b.nodup_prices (h block.toNat)
  case ascending => exact b.ascending_prices
  case told =>
    rw [show Json.parse? b.encode.compact = some b.encode from parse?_write Style.isBlank_compact _]
    exact b.readPrices?_encode
  case toldInDocument =>
    obtain ⟨rows, hrows, hperm⟩ := b.readPrices?_canonical
    exact ⟨rows, hrows, hperm, fun block => (h block).of_perm hperm⟩

/-- The same price at every block. -/
def always (p : Price) (_ : Nat) : Option Price := some p

/-- A price from a block on. -/
def since (start : UInt64) (p : Price) (block : Nat) : Option Price :=
  if block < start.toNat then none else some p

/-- A price from a block on and another from the block of a change on. -/
def changing (start : UInt64) (p : Price) (change : UInt64) (q : Price) (block : Nat) :
    Option Price :=
  if block < start.toNat then none else if block < change.toNat then some p else some q

variable {name : String}

theorem charges_since (start : UInt64) (e : PriceEntry) :
    Charges ⟨name, .ofList [(start, e)]⟩ (since start e.price) := by
  refine charges_of_holdsAt fun block => ?_
  have hholds := holdsAt_ofList name (List.pairwise_singleton _ (start, e)) block
  by_cases hstart : block < start.toNat
  · simpa [since, hstart, Nat.not_le.mpr hstart] using hholds
  · simpa [since, hstart, Nat.not_lt.mp hstart] using hholds

theorem charges_always (e : PriceEntry) :
    Charges ⟨name, .ofList [(0, e)]⟩ (always e.price) :=
  charges_since 0 e

/-- A change at the very block at which the first price begins leaves the
second one only. -/
theorem charges_changing {start change : UInt64} (h : start ≤ change) (e f : PriceEntry) :
    Charges ⟨name, .ofList [(start, e), (change, f)]⟩
      (changing start e.price change f.price) := by
  refine charges_of_holdsAt fun block => ?_
  have hle : start.toNat ≤ change.toNat := h
  have horder : [(start, e), (change, f)].Pairwise fun a b => a.1 ≤ b.1 := by simpa using h
  have hholds := holdsAt_ofList name horder block
  by_cases hchange : change.toNat ≤ block
  · have hstart : start.toNat ≤ block := Nat.le_trans hle hchange
    simpa [changing, hstart, hchange, Nat.not_lt.mpr hstart, Nat.not_lt.mpr hchange] using hholds
  · by_cases hstart : start.toNat ≤ block
    · simpa [changing, hstart, hchange, Nat.not_lt.mpr hstart, Nat.not_le.mp hchange] using hholds
    · simpa [changing, hstart, hchange, Nat.not_le.mp hstart] using hholds

/-! ## The nine contracts -/

/-- What is to be told of a contract. -/
structure Tariff where
  /-- The last byte of its address; the others are zeros. -/
  address : UInt8
  name : String
  /-- The price at a block, from the block on at which there is the contract. -/
  price : Nat → Option Price

/-- The contracts and their prices under a fork schedule. -/
def tariffs (s : ForkSchedule) : List Tariff :=
  [⟨1, "ecrecover", always (.linear 3000 0)⟩,
   ⟨2, "sha256", always (.linear 60 12)⟩,
   ⟨3, "ripemd160", always (.linear 600 120)⟩,
   ⟨4, "identity", always (.linear 15 3)⟩,
   ⟨5, "modexp", changing s.byzantium (.exponentiation 20) s.berlin .repricedExponentiation⟩,
   ⟨6, "alt_bn128_add",
     changing s.byzantium (.curveOperation 500) s.istanbul (.curveOperation 150)⟩,
   ⟨7, "alt_bn128_mul",
     changing s.byzantium (.curveOperation 40000) s.istanbul (.curveOperation 6000)⟩,
   ⟨8, "alt_bn128_pairing",
     changing s.byzantium (.curvePairing 100000 80000) s.istanbul (.curvePairing 45000 34000)⟩,
   ⟨9, "blake2_f", since s.istanbul (.compression 1)⟩]

/-- **Prices**: where the forks are in order, the registry has these nine
contracts at their addresses and no others, and each charges at every block
what its fork says. -/
theorem registry_prices_every_block {s : ForkSchedule} (h : s.violations = []) :
    List.Forall₂ (fun e t => e.1 = Address.ofLastByte t.address ∧ e.2.name = t.name ∧
      e.2.Charges t.price) (registry s).entries (tariffs s) := by
  have hberlin : s.byzantium ≤ s.berlin :=
    ForkSchedule.le_of_violations_eq_nil h (j := .byzantium) (k := .berlin) (by decide) rfl rfl
  have histanbul : s.byzantium ≤ s.istanbul :=
    ForkSchedule.le_of_violations_eq_nil h (j := .byzantium) (k := .istanbul) (by decide) rfl rfl
  rw [entries_registry]
  refine .cons ⟨rfl, rfl, ?_⟩ <| .cons ⟨rfl, rfl, ?_⟩ <| .cons ⟨rfl, rfl, ?_⟩ <|
    .cons ⟨rfl, rfl, ?_⟩ <| .cons ⟨rfl, rfl, ?_⟩ <| .cons ⟨rfl, rfl, ?_⟩ <|
    .cons ⟨rfl, rfl, ?_⟩ <| .cons ⟨rfl, rfl, ?_⟩ <| .cons ⟨rfl, rfl, ?_⟩ .nil
  · exact charges_always (plain (.linear 3000 0))
  · exact charges_always (plain (.linear 60 12))
  · exact charges_always (plain (.linear 600 120))
  · exact charges_always (plain (.linear 15 3))
  · exact charges_changing hberlin (plain (.exponentiation 20)) (plain .repricedExponentiation)
  · exact charges_changing histanbul (plain (.curveOperation 500)) (lowered (.curveOperation 150))
  · exact charges_changing histanbul (plain (.curveOperation 40000))
      (lowered (.curveOperation 6000))
  · exact charges_changing histanbul (plain (.curvePairing 100000 80000))
      (lowered (.curvePairing 45000 34000))
  · exact charges_since s.istanbul (plain (.compression 1))

/-- A schedule in which Byzantium and Istanbul activate at one block, and
Berlin after them. -/
def mergedForks : ForkSchedule where
  byzantium := 7
  constantinople := 7
  petersburg := 7
  istanbul := 7
  muirGlacier := 7
  berlin := 9
  london := 9
  arrowGlacier := 9

theorem prices_of_mergedForks :
    mergedForks.violations = [] ∧
      ((registry mergedForks).entries.map fun e => e.2.priceAt? 6) =
        [some (.linear 3000 0), some (.linear 60 12), some (.linear 600 120), some (.linear 15 3),
         none, none, none, none, none] ∧
      ((registry mergedForks).entries.map fun e => e.2.priceAt? 8) =
        [some (.linear 3000 0), some (.linear 60 12), some (.linear 600 120), some (.linear 15 3),
         some (.exponentiation 20), some (.curveOperation 150), some (.curveOperation 6000),
         some (.curvePairing 45000 34000), some (.compression 1)] := by
  have horder : mergedForks.violations = [] := by decide
  have hprices := registry_prices_every_block horder
  have hat (block : UInt64) : ((registry mergedForks).entries.map fun e => e.2.priceAt? block) =
      (tariffs mergedForks).map fun t => t.price block.toNat := by
    rw [← List.forall₂_eq_eq_eq, List.forall₂_map_left_iff, List.forall₂_map_right_iff]
    exact hprices.imp fun _ _ h => h.2.2.found block
  exact ⟨horder, hat 6, hat 8⟩

end Provision.Builtin
