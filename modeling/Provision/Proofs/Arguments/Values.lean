/-
Provision.Proofs.Arguments.Values — what the values of a command line tell.

A number, a list of families of calls, a list of peers and an account are
each recovered from the text that stands for them on a command line: the
entries of a list hold no comma, and the case of a letter tells nothing
that its lowercase form does not (`Text.toUpper_injective_of_isLower`,
`Address.checksumText_injective`).
-/
import Provision.Proofs.Arguments.Lines

namespace Provision

/-! ## Case -/

/-- A text without capitals. -/
def Text.IsLower (t : String) : Prop := ∀ c ∈ t.toList, c.toLower = c

namespace Text

instance (t : String) : Decidable (IsLower t) :=
  List.decidableBAll (fun c : Char => c.toLower = c) t.toList

theorem toLower_toUpper (c : Char) : c.toUpper.toLower = c.toLower :=
  Hex.forall_char (P := fun c => c.toUpper.toLower = c.toLower) (by decide)
    (fun c hc => by rw [toUpper_of_not_ascii hc]) c

/-- A text without capitals is recovered from the same text in capitals. -/
theorem toLower_toUpper_of_isLower {t : String} (h : IsLower t) :
    t.toUpper.toList.map Char.toLower = t.toList := by
  have hchars : t.toUpper.toList = t.toList.map Char.toUpper := by simp [String.toUpper]
  rw [hchars, List.map_map]
  conv_rhs => rw [← List.map_id t.toList]
  refine List.map_congr_left fun c hc => ?_
  rw [Function.comp_apply, toLower_toUpper, h c hc, id]

theorem toUpper_injective_of_isLower {t u : String} (ht : IsLower t) (hu : IsLower u)
    (h : t.toUpper = u.toUpper) : t = u := by
  rw [← String.toList_inj, ← toLower_toUpper_of_isLower ht, h, toLower_toUpper_of_isLower hu]

/-! ## Lists -/

theorem isLower_intercalate {sep : String} (hsep : IsLower sep) {ts : List String}
    (h : ∀ t ∈ ts, IsLower t) : IsLower (sep.intercalate ts) := by
  intro c hc
  rw [String.toList_intercalate] at hc
  obtain hc | ⟨p, hp, hc⟩ := mem_intercalate hc
  · exact hsep c hc
  · obtain ⟨t, ht, rfl⟩ := List.mem_map.mp hp
    exact h t ht c hc

/-- What may stand in a list separated by commas. -/
def IsEntry (t : String) : Prop := t ≠ "" ∧ ',' ∉ t.toList

/-- A list with an entry is cut into its entries. -/
theorem pieces_list {ts : List String} (hne : ts ≠ []) (h : ∀ t ∈ ts, IsEntry t) :
    pieces ',' (",".intercalate ts).toList = ts.map String.toList := by
  rw [String.toList_intercalate]
  refine pieces_intercalate_eq_iff.mpr ⟨mt List.map_eq_nil_iff.mp hne, fun p hp => ?_⟩
  obtain ⟨t, ht, rfl⟩ := List.mem_map.mp hp
  exact (h t ht).2

/-- The empty text is no list of entries but the empty one. -/
theorem eq_nil_of_intercalate_eq_empty {ts : List String} (h : ∀ t ∈ ts, IsEntry t)
    (hempty : ",".intercalate ts = "") : ts = [] := by
  by_contra hne
  have hpieces := pieces_list hne h
  rw [hempty] at hpieces
  obtain ⟨t, ht, hnil⟩ := List.map_eq_singleton_iff.mp hpieces.symm
  subst ht
  exact (h t List.mem_cons_self).1 (String.toList_inj.mp hnil)

theorem intercalate_injective {ts us : List String} (hts : ∀ t ∈ ts, IsEntry t)
    (hus : ∀ u ∈ us, IsEntry u) (h : ",".intercalate ts = ",".intercalate us) : ts = us := by
  by_cases hnil : ts = []
  · rw [hnil] at h ⊢
    exact (eq_nil_of_intercalate_eq_empty hus h.symm).symm
  · have hnil' : us ≠ [] := by
      rintro rfl
      exact hnil (eq_nil_of_intercalate_eq_empty hts h)
    have hpieces := pieces_list hnil hts
    rw [h, pieces_list hnil' hus] at hpieces
    exact (List.map_injective_iff.mpr (fun _ _ => String.toList_injective) hpieces).symm

end Text

open Text

/-! ## Numbers -/

theorem Decimal.text_injective {m n : Nat} (h : Decimal.text m = Decimal.text n) : m = n :=
  Decimal.digits_injective (String.ofList_injective h)

@[simp] theorem Decimal.text_inj {m n : Nat} : Decimal.text m = Decimal.text n ↔ m = n :=
  ⟨Decimal.text_injective, congrArg _⟩

theorem Decimal.head_text_ne_hyphen (n : Nat) : (Decimal.text n).toList.head? ≠ some '-' := by
  intro h
  rw [Decimal.text, String.toList_ofList] at h
  exact absurd (Decimal.isDigit_of_mem_digits (List.mem_of_head? h)) (by decide)

@[simp] theorem Situation.portText_inj {p q : UInt16} : portText p = portText q ↔ p = q := by
  rw [portText, portText, Decimal.text_inj, UInt16.toNat_inj]

/-! ## Choices -/

theorem SyncMode.name_injective {a b : SyncMode} (h : a.name = b.name) : a = b := by
  revert h
  cases a <;> cases b <;> decide

theorem Verbosity.name_injective {a b : Verbosity} (h : a.name = b.name) : a = b := by
  revert h
  cases a <;> cases b <;> decide

theorem Verbosity.isLower_name (v : Verbosity) : IsLower v.name := by
  cases v <;> decide

theorem Api.name_injective {a b : Api} (h : a.name = b.name) : a = b := by
  revert h
  cases a <;> cases b <;> decide

theorem Api.isLower_name (a : Api) : IsLower a.name := by
  cases a <;> decide

theorem Api.isEntry_name (a : Api) : IsEntry a.name := by
  cases a <;> exact ⟨by decide, by decide⟩

namespace Situation

theorem isLower_apiText (apis : List Api) : IsLower (apiText apis) := by
  refine isLower_intercalate (by decide) fun t ht => ?_
  obtain ⟨a, -, rfl⟩ := List.mem_map.mp ht
  exact a.isLower_name

theorem apiText_injective {apis apis' : List Api} (h : apiText apis = apiText apis') :
    apis = apis' := by
  have hentries (apis : List Api) : ∀ t ∈ apis.map Api.name, IsEntry t := by
    intro t ht
    obtain ⟨a, -, rfl⟩ := List.mem_map.mp ht
    exact a.isEntry_name
  exact List.map_injective_iff.mpr (fun _ _ => Api.name_injective)
    (intercalate_injective (hentries _) (hentries _) h)

@[simp] theorem apiText_inj {apis apis' : List Api} : apiText apis = apiText apis' ↔ apis = apis' :=
  ⟨apiText_injective, congrArg _⟩

@[simp] theorem toUpper_apiText_inj {apis apis' : List Api} :
    (apiText apis).toUpper = (apiText apis').toUpper ↔ apis = apis' := by
  constructor
  · intro h
    exact apiText_injective
      (toUpper_injective_of_isLower (isLower_apiText apis) (isLower_apiText apis') h)
  · intro h
    rw [h]

end Situation

/-! ## Peers -/

theorem Enode.text_injective {a b : Enode} (h : a.text = b.text) : a = b := by
  cases a
  cases b
  cases h
  rfl

theorem Enode.isEntry_text (e : Enode) : IsEntry e.text := by
  constructor
  · intro hempty
    have hvalid := e.valid
    rw [hempty] at hvalid
    exact absurd hvalid (by decide)
  · intro hcomma
    exact absurd (isAddressChar_of_mem hcomma) (by decide)

theorem Enode.isEntry_of_mem_texts {es : List Enode} {t : String} (h : t ∈ es.map Enode.text) :
    IsEntry t := by
  obtain ⟨e, -, rfl⟩ := List.mem_map.mp h
  exact e.isEntry_text

theorem Enode.list_injective {es es' : List Enode}
    (h : ",".intercalate (es.map Enode.text) = ",".intercalate (es'.map Enode.text)) :
    es = es' :=
  List.map_injective_iff.mpr (fun _ _ => Enode.text_injective)
    (intercalate_injective (fun _ => isEntry_of_mem_texts) (fun _ => isEntry_of_mem_texts) h)

/-! ## Accounts -/

theorem Keccak.length_digest (message : List UInt8) : (Keccak.digest message).length = 32 := by
  unfold Keccak.digest
  simp [List.length_flatMap, Keccak.bytesOfWord]

namespace Address

/-- Raising letters changes their case only, where the digest reaches. -/
theorem toLower_raiseBy {digest ds : List Char} (h : ds.length ≤ digest.length) :
    (raiseBy digest ds).map Char.toLower = ds.map Char.toLower := by
  induction digest generalizing ds with
  | nil =>
    rw [List.eq_nil_of_length_eq_zero (Nat.le_zero.mp h)]
    rfl
  | cons d digest ih =>
    cases ds with
    | nil => rfl
    | cons c ds =>
      have htail := ih (Nat.le_of_succ_le_succ h)
      unfold raiseBy at htail ⊢
      rw [List.zipWith_cons_cons, List.map_cons, List.map_cons, htail]
      split
      · rw [toLower_toUpper]
      · rfl

/-- The digest reaches every digit of an address. -/
theorem toLower_checksumText (a : Address) :
    a.checksumText.toList.map Char.toLower = '0' :: 'x' :: Hex.encode a.bytes := by
  have hlen : (Hex.encode a.bytes).length ≤
      (Hex.encode (Keccak.digest ((Hex.encode a.bytes).map fun c => c.toNat.toUInt8))).length := by
    rw [Hex.length_encode, Hex.length_encode, Keccak.length_digest, a.length_bytes]
    decide
  unfold checksumText
  rw [String.toList_ofList, List.map_cons, List.map_cons, toLower_raiseBy hlen, Hex.toLower_encode]
  rfl

theorem checksumText_injective {a b : Address} (h : a.checksumText = b.checksumText) : a = b := by
  have hdigits := toLower_checksumText a
  rw [h, toLower_checksumText, List.cons.injEq, List.cons.injEq] at hdigits
  exact FixedBytes.ext_bytes (Hex.encode_injective hdigits.2.2.symm)

@[simp] theorem checksumText_inj {a b : Address} : a.checksumText = b.checksumText ↔ a = b :=
  ⟨checksumText_injective, congrArg _⟩

end Address

end Provision
