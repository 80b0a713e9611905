/-
Provision.Proofs.KeyOrder — descriptions in any order.

The members of the objects of a description may stand in any order, at
every depth: it is read as the same node or network, or refused, in all of
them (`descriptions_in_any_order`). No object may repeat a key, and a
genesis may name one engine only, because of several the first counts.

There is one more condition. Behind the last byte of an address or a hash
the reader tries to read one byte more, and when the attempt fails in the
middle of an element, it goes on from there. What follows is not what the
text has, and may depend on what stands next to the array
(`order_matters_behind_half_a_character`).
-/
import Provision.Node.Layout
import Provision.Proofs.Genesis.FirstEngine
import Provision.Proofs.HexText
import Provision.Proofs.Json.Orderless
import Provision.Proofs.OrderedMap

namespace Provision

open Json Source

/-! ## Storage -/

/-- A slot is read from one key only. -/
theorem eq_of_readHexText {a b : String} {h : HexText} (ha : readHexText a = .ok h)
    (hb : readHexText b = .ok h) : a = b := by
  have htext {s : String} (hs : readHexText s = .ok h) : h.text = s := by
    unfold readHexText at hs
    split at hs
    · rename_i hread
      cases hs
      exact HexText.text_of_ofText? hread
    · cases hs
  rw [← htext ha, ← htext hb]

/-- The slots are put into the storage one by one. -/
theorem decodeSlots_cons_eq_ok_iff {key : Key} {value : Source} {rest : List (Key × Source)}
    {s t : Storage} :
    decodeSlots ((key, value) :: rest) s = .ok t ↔
      ∃ name slot content, key = some name ∧ readHexText name = .ok slot ∧
        decodeHexText value = .ok content ∧ decodeSlots rest (s.insert slot content) = .ok t := by
  cases key with
  | none => simp [decodeSlots, readKey, fail, bind, Except.bind]
  | some name =>
    simp only [decodeSlots, readKey, bind_eq_ok_iff, Except.ok.injEq, Option.some.injEq,
      exists_eq_left']
    constructor
    · rintro ⟨slot, hslot, content, hcontent, h⟩
      exact ⟨name, slot, content, rfl, hslot, hcontent, h⟩
    · rintro ⟨_, slot, content, rfl, hslot, hcontent, h⟩
      exact ⟨slot, hslot, content, hcontent, h⟩

/-- Two slots that stand side by side may change places. -/
theorem decodeSlots_of_swap {m m' : Key × Source}
    (hne : ∀ name, m.1 = some name → m'.1 ≠ some name) {rest : List (Key × Source)}
    {s t : Storage} (h : decodeSlots (m :: m' :: rest) s = .ok t) :
    decodeSlots (m' :: m :: rest) s = .ok t := by
  obtain ⟨key, value⟩ := m
  obtain ⟨key', value'⟩ := m'
  obtain ⟨name, slot, content, rfl, hslot, hcontent, h⟩ := decodeSlots_cons_eq_ok_iff.mp h
  obtain ⟨name', slot', content', rfl, hslot', hcontent', h⟩ := decodeSlots_cons_eq_ok_iff.mp h
  have hslots : slot ≠ slot' := by
    rintro rfl
    exact hne name rfl (congrArg some (eq_of_readHexText hslot' hslot))
  rw [OrderedMap.insert_comm s hslots] at h
  refine decodeSlots_cons_eq_ok_iff.mpr ⟨name', slot', content', rfl, hslot', hcontent', ?_⟩
  exact decodeSlots_cons_eq_ok_iff.mpr ⟨name, slot, content, rfl, hslot, hcontent, h⟩

/-- Slots of different keys may stand in any order. -/
theorem decodeSlots_perm {ms ms' : List (Key × Source)} (hperm : ms.Perm ms')
    (hne : ms.Pairwise fun m m' => ∀ name, m.1 = some name → m'.1 ≠ some name) {s t : Storage} :
    decodeSlots ms s = .ok t ↔ decodeSlots ms' s = .ok t := by
  refine iff_of_perm (fun ms s => decodeSlots ms s = .ok t)
    (fun h name hm' hm => h name hm hm') ?_ (fun h hrun => decodeSlots_of_swap h hrun) hperm hne s
  rintro ⟨key, value⟩ rest rest' h s
  simp only [decodeSlots_cons_eq_ok_iff, h]

/-- The contents of slots may be reordered, though there is nothing to reorder in them. -/
theorem alike_decodeSlots {ms ms' : List (Key × Source)}
    (h : List.Forall₂ (SameKey Reorder) ms ms') (htidy : ∀ m ∈ ms, m.2.Tidy) {s : Storage} :
    Alike Eq (decodeSlots ms s) (decodeSlots ms' s) := by
  induction h generalizing s with
  | nil => exact .ok rfl
  | cons hm _ ih =>
    obtain ⟨hhead, htail⟩ := List.forall_mem_cons.mp htidy
    cases hm with
    | mk key hvalue =>
      have hkey := ((settles_readKey key).bind settles_readHexText).alike
      refine hkey.bind fun slot slot' hslot => ?_
      refine (orderless_hexText hvalue hhead).bind fun content content' hcontent => ?_
      rw [hslot, hcontent]
      exact ih htail

theorem settles_decodeSlots {ms : List (Key × Source)}
    (h : ∀ m ∈ ms, Settles (decodeHexText m.2)) {s : Storage} : Settles (decodeSlots ms s) := by
  induction ms generalizing s with
  | nil => exact settles_ok s
  | cons m rest ih =>
    obtain ⟨hhead, htail⟩ := List.forall_mem_cons.mp h
    refine ((settles_readKey m.1).bind settles_readHexText).bind fun slot => ?_
    exact hhead.bind fun content => ih htail

theorem orderless_decodeStorage : Orderless decodeStorage := by
  intro x y hxy hx
  cases hxy with
  | @object ms ms' ms'' closing h hperm =>
    have hne := Layout.pairwise_of_nodup_keys (keys_of_forall₂ h ▸ hx.nodup_keys)
    have hsettled : ∀ m ∈ ms', Settles (decodeHexText m.2) := by
      intro m' hm'
      obtain ⟨m, hm, ⟨_, hvalue⟩⟩ := exists_mem_of_forall₂ h hm'
      exact (orderless_hexText hvalue (hx.member hm)).settles_right
    have horder := alike_of_iff (settles_decodeSlots hsettled)
      (settles_decodeSlots fun m hm => hsettled m (hperm.mem_iff.mpr hm))
      fun t => decodeSlots_perm hperm hne (s := .empty) (t := t)
    refine ((alike_decodeSlots h fun m hm => hx.member hm).trans horder).bind fun s s'' hs => ?_
    obtain ⟨s', rfl, rfl⟩ := hs
    refine (alike_proceed closing.wanted).bind fun _ _ _ => ?_
    exact .ok rfl
  | number n => exact alike_mismatch _ _ (.number n) (.number n)
  | _ => exact .error trivial trivial

/-! ## Records -/

theorem orderless_optional {α : Type} {c : Codec α} (h : Orderless c.read) :
    Orderless (Slot.optional c).read := by
  intro x y hxy hx
  exact orderlessOn_decodeOption (h.on fun _ => True) hxy hx trivial

theorem Account.orderless_decode : Orderless Account.layout.decode := by
  refine Layout.orderless_decode Account.layout_lawful.fields_nodup fun f => ?_
  cases f with
  | address => exact orderless_fixedBytes (.inl rfl)
  | balance => exact orderless_hexText
  | code => exact orderless_optional orderless_hexText
  | storage => exact orderless_optional (c := storageCodec) orderless_decodeStorage

theorem ForkSchedule.orderless_decode : Orderless ForkSchedule.layout.decode := by
  refine Layout.orderless_decode ForkSchedule.layout_lawful.fields_nodup fun f => ?_
  cases f
  case dao => exact orderless_optional orderless_uint64
  all_goals exact orderless_uint64

theorem Ethash.orderless_decode : Orderless Ethash.layout.decode := by
  refine Layout.orderless_decode Ethash.layout_lawful.fields_nodup fun f => ?_
  cases f
  exact orderless_optional orderless_uint64

theorem Clique.orderless_decode : Orderless Clique.layout.decode := by
  refine Layout.orderless_decode Clique.layout_lawful.fields_nodup fun f => ?_
  cases f
  case signers => exact orderless_list (orderless_fixedBytes (.inl rfl))
  all_goals exact orderless_uint64

theorem Istanbul.orderless_decode : Orderless Istanbul.layout.decode := by
  refine Layout.orderless_decode Istanbul.layout_lawful.fields_nodup fun f => ?_
  cases f
  case validators => exact orderless_list (orderless_fixedBytes (.inl rfl))
  all_goals exact orderless_uint64

theorem ImportedAccount.orderless_decode : Orderless ImportedAccount.layout.decode := by
  refine Layout.orderless_decode ImportedAccount.layout_lawful.fields_nodup fun f => ?_
  cases f <;> exact orderless_decodeText

theorem Enode.orderless_read : Orderless Enode.codec.read := by
  intro x y hxy hx
  refine (orderless_decodeText hxy hx).bind fun s s' h => ?_
  have hsettled : Settles (readEnode s') := by
    unfold readEnode
    split
    · exact settles_ok _
    · exact settles_failed _
  rw [h]
  exact hsettled.alike

theorem Node.orderless_decode : Orderless Node.layout.decode := by
  refine Layout.orderless_decode Node.layout_lawful.fields_nodup fun f => ?_
  cases f
  case client | syncMode | logging => exact orderless_decodeVariant _
  case image | nodePrivateKeySecretName | jwtSecretName =>
    exact orderless_optional (c := .text) orderless_decodeText
  case p2pPort | rpcPort | wsPort | graphqlPort | enginePort => exact orderless_uint16
  case bootnodes | staticNodes => exact orderless_list Enode.orderless_read
  case rpcApi | wsApi => exact orderless_list (c := Api.codec) (orderless_decodeVariant _)
  case hosts | corsDomains => exact orderless_list (c := .text) orderless_decodeText
  case importedAccount =>
    exact orderless_optional (c := ImportedAccount.layout.codec) ImportedAccount.orderless_decode
  case coinbase => exact orderless_optional (orderless_fixedBytes (.inl rfl))
  all_goals exact orderless_decodeBool

theorem Genesis.Terms.orderless_read (f : Genesis.Terms.Field) :
    Orderless (Genesis.Terms.layout.slot f).read := by
  cases f
  case accounts =>
    exact orderless_list (c := Account.layout.codec) Account.orderless_decode
  case networkId | chainId => exact orderless_uint64
  case coinbase => exact orderless_fixedBytes (n := 20) (.inl rfl)
  case mixHash => exact orderless_fixedBytes (n := 32) (.inr rfl)
  case forks => exact ForkSchedule.orderless_decode
  all_goals exact orderless_hexText

/-! ## The engine -/

namespace Genesis

theorem orderless_of_lookup {name : String} {read : Decoder Engine}
    (h : Engine.decoders.lookup name = some read) : Orderless read := by
  have hmem : (name, read) ∈ Engine.decoders := by
    obtain ⟨before, after, heq, -⟩ := List.lookup_eq_some_iff.mp h
    simp [heq]
  simp only [Engine.decoders, List.mem_cons, Prod.mk.injEq, List.not_mem_nil, or_false] at hmem
  rcases hmem with ⟨-, rfl⟩ | ⟨-, rfl⟩ | ⟨-, rfl⟩
  · exact Ethash.orderless_decode.map _
  · exact Clique.orderless_decode.map _
  · exact Istanbul.orderless_decode.map _

/-- No engine has been met, or the parameters of the one that has differ in
their order at most. -/
inductive MetAlike : Option MetEngine → Option MetEngine → Prop
  | none : MetAlike none none
  | some {read : Decoder Engine} {held held' : Source} (hread : Orderless read)
    (h : held.Reorder held') (htidy : held.Tidy) : MetAlike (some (read, held)) (some (read, held'))

theorem alike_meetMember {room : Nat} {met met' : Option MetEngine} (name : String)
    {value value' : Source} (hmet : MetAlike met met') (h : value.Reorder value')
    (htidy : value.Tidy) :
    Alike MetAlike (meetMember room met name value) (meetMember room met' name value') := by
  have halike := hold_reorder room h
  unfold meetMember
  generalize value'.hold room = outcome at halike ⊢
  cases hheld : value.hold room with
  | error f =>
    rw [hheld] at halike
    cases halike
    exact alike_fail _ _
  | ok held =>
    rw [hheld] at halike
    cases halike with
    | ok h =>
      cases hmet with
      | some hread hsame htidy' => exact .ok (.some hread hsame htidy')
      | none =>
        cases hread : Engine.decoders.lookup name with
        | none => exact .ok .none
        | some read => exact .ok (.some (orderless_of_lookup hread) h (htidy.hold hheld))

theorem orderlessOther_meetMember (room : Nat) :
    Layout.OrderlessOther MetAlike (meetMember room) where
  alike name _ _ hmet h htidy := alike_meetMember name hmet h htidy
  settles met name value := by
    unfold meetMember
    split
    · exact settles_failed _
    · split <;> exact settles_ok _

/-- A member that names no engine has only to fit into memory. -/
theorem meetMember_of_not_namesEngine {room : Nat} {met met' : Option MetEngine} {name : String}
    {value : Source} (hnames : ¬ NamesEngine (some name, value)) :
    meetMember room met name value = .ok met' ↔
      met' = met ∧ ∃ held, value.hold room = .ok held := by
  cases met with
  | some met => exact meetMember_some_eq_ok_iff
  | none =>
    rw [namesEngine_iff, ← Option.isSome_iff_exists, Option.not_isSome_iff_eq_none] at hnames
    simp only [meetMember_none_eq_ok_iff, hnames, Option.map_none]
    exact ⟨fun ⟨held, hheld, h⟩ => ⟨h, held, hheld⟩, fun ⟨h, held, hheld⟩ => ⟨held, hheld, h⟩⟩

/-- Of two members of which one names no engine, either may come first. -/
theorem meetMember_of_swap {room : Nat} {met met₁ met₂ : Option MetEngine} {name name' : String}
    {value value' : Source}
    (hone : NamesEngine (some name, value) → ¬ NamesEngine (some name', value'))
    (h : meetMember room met name value = .ok met₁)
    (h' : meetMember room met₁ name' value' = .ok met₂) :
    ∃ met₃, meetMember room met name' value' = .ok met₃ ∧
      meetMember room met₃ name value = .ok met₂ := by
  by_cases hnames : NamesEngine (some name, value)
  · have hnone := hone hnames
    obtain ⟨rfl, hheld⟩ := (meetMember_of_not_namesEngine hnone).mp h'
    exact ⟨met, (meetMember_of_not_namesEngine hnone).mpr ⟨rfl, hheld⟩, h⟩
  · obtain ⟨rfl, hheld⟩ := (meetMember_of_not_namesEngine hnames).mp h
    exact ⟨met₂, h', (meetMember_of_not_namesEngine hnames).mpr ⟨rfl, hheld⟩⟩

/-- At most one member of the object names an engine. -/
def NamesOneEngine (x : Source) : Prop :=
  ∀ ms closing, x = .object ms closing → (ms.filter (NamesEngine ·)).length ≤ 1

/-- Whether a member names an engine is a matter of its key. -/
theorem length_filter_of_sameKey {R : Source → Source → Prop} {ms ms' : List (Key × Source)}
    (h : List.Forall₂ (SameKey R) ms ms') :
    (ms.filter (NamesEngine ·)).length = (ms'.filter (NamesEngine ·)).length := by
  induction h with
  | nil => rfl
  | @cons m m' rest rest' hm _ ih =>
    have hkey : NamesEngine m ↔ NamesEngine m' := by
      obtain ⟨k, -⟩ := hm
      exact Iff.rfl
    simp only [List.filter_cons, hkey]
    split
    · rw [List.length_cons, List.length_cons, ih]
    · exact ih

theorem pairwise_of_length_filter {ms : List (Key × Source)}
    (h : (ms.filter (NamesEngine ·)).length ≤ 1) :
    ms.Pairwise fun m m' => NamesEngine m → ¬ NamesEngine m' := by
  have hnone : (ms.filter (NamesEngine ·)).Pairwise fun _ _ => False := by
    match hfilter : ms.filter (NamesEngine ·) with
    | [] => exact .nil
    | [m] => exact List.pairwise_singleton _ m
    | _ :: _ :: _ =>
      rw [hfilter] at h
      simp at h
  refine (List.pairwise_filter.mp hnone).imp fun h hm hm' => ?_
  exact h (decide_eq_true hm) (decide_eq_true hm')

theorem pairwise_apart_meetMember {room : Nat} {ms : List (Key × Source)}
    (hkeys : (Source.keys ms).Nodup) (hone : (ms.filter (NamesEngine ·)).length ≤ 1) :
    ms.Pairwise (Terms.layout.Apart (meetMember room)) := by
  have hpairwise := (Layout.pairwise_of_nodup_keys hkeys).and (pairwise_of_length_filter hone)
  refine hpairwise.imp fun {m m'} h => ⟨h.1, fun {met r name name'} hm hm' _ _ => ?_⟩
  obtain ⟨key, value⟩ := m
  obtain ⟨key', value'⟩ := m'
  obtain rfl : key = some name := hm
  obtain rfl : key' = some name' := hm'
  rw [bind_eq_ok_iff, bind_eq_ok_iff]
  constructor
  · rintro ⟨met₁, h₁, h₂⟩
    exact meetMember_of_swap h.2 h₁ h₂
  · rintro ⟨met₁, h₁, h₂⟩
    exact meetMember_of_swap (fun hnames' hnames => h.2 hnames hnames') h₁ h₂

/-! ## Genesis and network -/

/-- **Genesis**: a genesis that names one engine at most is read alike in
every order. -/
theorem orderlessOn_decode (room : Nat) : OrderlessOn NamesOneEngine (decode room) := by
  intro x y hxy hx hone
  cases hxy with
  | @object ms ms' _ closing h hperm =>
    have hkeys := keys_of_forall₂ h ▸ hx.nodup_keys
    have hone' : (ms'.filter (NamesEngine ·)).length ≤ 1 := by
      rw [← length_filter_of_sameKey h]
      exact hone ms closing rfl
    refine (Layout.alike_takeMembers_of_perm
      (fun f => (Terms.orderless_read f).on fun _ => True) (orderlessOther_meetMember room) h hperm
      (fun m hm => hx.member hm) (fun _ _ _ => trivial) (pairwise_apart_meetMember hkeys hone')
      .none).bind ?_
    rintro ⟨found, met⟩ ⟨_, met'⟩ ⟨rfl, hmet⟩
    refine (alike_proceed closing.wanted).bind fun _ _ _ => ?_
    refine (Layout.settles_build _ _).alike.bind fun terms terms' hterms => ?_
    cases hmet with
    | none => exact alike_refuse _ _
    | some hread hheld htidy =>
      refine (hread hheld htidy).bind fun engine engine' hengine => ?_
      rw [hterms, hengine]
      exact .ok rfl
  | number n => exact alike_mismatch _ _ (.number n) (.number n)
  | _ => exact .error trivial trivial

end Genesis

/-- The genesis of a network names one engine at most. -/
def Network.NamesOneEngine (x : Source) : Prop :=
  ∀ part, Genesis.partOfNetwork? x = some part → Genesis.NamesOneEngine part

theorem Network.orderlessOn_decode : OrderlessOn NamesOneEngine Network.layout.decode := by
  intro x y hxy hx hone
  refine Layout.orderlessOn_decode (P := fun f part => f = .genesis → Genesis.NamesOneEngine part)
    Network.layout_lawful.fields_nodup (fun f => ?_) hxy hx fun f part hpart hf => ?_
  · cases f with
    | publicName => exact orderless_decodeText.on _
    | consensus =>
      exact (orderless_optional (c := Consensus.codec) (orderless_decodeVariant _)).on _
    | genesis =>
      refine orderlessOn_decodeOption fun s s' hs htidy hpart => ?_
      exact Genesis.orderlessOn_decode _ hs htidy (hpart rfl)
  · subst hf
    exact hone part hpart

/-! ## Texts -/

/-- The texts differ only in the order of the members of their objects, and
in blanks. -/
structure Json.Document.Reorder (d d' : Document) : Prop where
  value : d.value.Reorder d'.value
  trailing : d.trailing = d'.trailing

theorem decodeDocument_reorder {α : Type} {P : Source → Prop} {decode : Decoder α}
    (hdecode : OrderlessOn P decode) {text text' : String}
    (h : (Document.ofText text).Reorder (Document.ofText text'))
    (hx : (Document.ofText text).value.Tidy) (hP : P (Document.ofText text).value) (a : α) :
    decodeDocument decode text = .ok a ↔ decodeDocument decode text' = .ok a := by
  obtain ⟨hvalue, htrailing⟩ := h
  have halike := hdecode hvalue hx hP
  unfold Document.ofText at halike htrailing
  simp only [decodeDocument, decodeChars]
  generalize decode (Document.ofChars text.toList).value = r at halike ⊢
  generalize decode (Document.ofChars text'.toList).value = r' at halike ⊢
  cases halike with
  | ok hab => simp only [hab, htrailing]
  | @error e e' hstop hstop' =>
    cases e with
    | skipped f => exact hstop.elim
    | failed f =>
      cases e' with
      | skipped f' => exact hstop'.elim
      | failed f' =>
        constructor
        · intro h
          cases h
        · intro h
          cases h

/-- **Order**: a description is read as the same node or network in every
order of the members of its objects, or refused in all of them. -/
theorem descriptions_in_any_order {text text' : String}
    (h : (Document.ofText text).Reorder (Document.ofText text'))
    (hkeys : (Document.ofText text).value.DistinctKeys)
    (hflaws : (Document.ofText text).value.NoFlawBehindBytes) :
    (∀ n, Node.ofText text = .ok n ↔ Node.ofText text' = .ok n) ∧
      (Network.NamesOneEngine (Document.ofText text).value →
        ∀ n, Network.ofText text = .ok n ↔ Network.ofText text' = .ok n) := by
  have hx : (Document.ofText text).value.Tidy := ⟨hkeys, hflaws⟩
  constructor
  · intro n
    exact decodeDocument_reorder (Node.orderless_decode.on fun _ => True) h hx trivial n
  · intro hone n
    exact decodeDocument_reorder Network.orderlessOn_decode h hx hone n

/-- A network with one account and two slots, where the members of every
object stand in the order that is given. -/
def Network.twoSlots (order : List (String × Json) → List (String × Json)) : Json :=
  .obj (order [("consensus", .str "pow"),
    ("genesis", .obj (order [("networkId", .nat 1), ("chainId", .nat 1), ("ethash", .obj []),
      ("accounts", .arr [.obj (order [("address", .str (Address.ofLastByte 1).text),
        ("balance", .str "0x1"),
        ("storage", .obj (order [("0x1", .str "0x2"), ("0x2", .str "0x3")]))])])]))])

theorem Network.reorder_twoSlots :
    (ofJson .closed (twoSlots id)).Reorder (ofJson .closed (twoSlots List.reverse)) := by
  have hstorage := Reorder.object .closed
    (Reorder.refl_members (ofMembers .closed [("0x1", .str "0x2"), ("0x2", .str "0x3")]))
    (List.reverse_perm _).symm
  have haccount := Reorder.object .closed
    (.cons (.mk (some "address") (.refl (.text (Address.ofLastByte 1).text))) <|
      .cons (.mk (some "balance") (.refl (.text "0x1"))) <|
      .cons (.mk (some "storage") hstorage) .nil)
    (List.reverse_perm _).symm
  have hgenesis := Reorder.object .closed
    (.cons (.mk (some "networkId") (.refl (.number (.natural 1)))) <|
      .cons (.mk (some "chainId") (.refl (.number (.natural 1)))) <|
      .cons (.mk (some "ethash") (.refl (.object [] .closed))) <|
      .cons (.mk (some "accounts") (.array .closed (.cons haccount .nil))) .nil)
    (List.reverse_perm _).symm
  exact .object .closed
    (.cons (.mk (some "consensus") (.refl (.text "pow"))) <|
      .cons (.mk (some "genesis") hgenesis) .nil)
    (List.reverse_perm _).symm

theorem two_slots_in_reverse :
    ∃ text text' n, text ≠ text' ∧ (Document.ofText text).Reorder (Document.ofText text') ∧
      (Document.ofText text).value.DistinctKeys ∧ (Document.ofText text).value.NoFlawBehindBytes ∧
      Network.NamesOneEngine (Document.ofText text).value ∧
      Network.ofText text = .ok n ∧ Network.ofText text' = .ok n := by
  have htree (order : List (String × Json) → List (String × Json)) :
      Document.ofText (Network.twoSlots order).compact =
        ⟨ofJson .closed (Network.twoSlots order), false⟩ :=
    ofText_write Style.isBlank_compact _
  have htexts : (Network.twoSlots id).compact ≠ (Network.twoSlots List.reverse).compact := by
    intro heq
    have h := write_injective Style.isBlank_compact heq
    revert h
    decide
  have h : (Document.ofText (Network.twoSlots id).compact).Reorder
      (Document.ofText (Network.twoSlots List.reverse).compact) := by
    rw [htree, htree]
    exact ⟨Network.reorder_twoSlots, rfl⟩
  have htidy : (Document.ofText (Network.twoSlots id).compact).value.Tidy := by
    rw [htree]
    exact tidy_ofJson _
      (by simp [Network.twoSlots, Json.DistinctKeys, MembersDistinct, AllDistinct])
  have hone : Network.NamesOneEngine (Document.ofText (Network.twoSlots id).compact).value := by
    rw [htree]
    intro part hpart ms closing heq
    cases hpart
    cases heq
    decide
  obtain ⟨n, hn⟩ : ∃ n, Network.ofText (Network.twoSlots id).compact = .ok n :=
    ⟨_, decodeDocument_compact rfl⟩
  refine ⟨_, _, n, htexts, h, htidy.keys, htidy.flaws, hone, hn, ?_⟩
  exact ((descriptions_in_any_order h htidy.keys htidy.flaws).2 hone n).mp hn

/-! ## Behind the last byte -/

/-- A network of two accounts, where these are the members of the first. -/
def Network.twoAccounts (first second : String) : String :=
  "\x7b\"genesis\":\x7b\"networkId\":1,\"chainId\":1,\"ethash\":\x7b\x7d,\"accounts\":[\x7b" ++
    first ++ "," ++ second ++
    "\x7d,[[\":0\x7d,[[1,1,1,1,1,1,1,1,1,1,1,1,1,1,1,1,1,1,1,1,-\"],\"0x1\"]]\x7d\x7d"

/-- A balance. -/
def Network.balanceMember : String := "\"balance\":\"0x1\""

/-- An address of twenty bytes and a text that begins with half of a character. -/
def Network.addressMember : String :=
  "\"address\":[0,0,0,0,0,0,0,0,0,0,0,0,0,0,0,0,0,0,0,0,\"\\ud800x],\"]"

/-- The tree of the network, where these are the members of the first account. -/
def Network.twoAccountsTree (first : List (Key × Source)) : Source :=
  .object [(some "genesis", .object [(some "networkId", .number (.natural 1)),
    (some "chainId", .number (.natural 1)), (some "ethash", .object [] .closed),
    (some "accounts", .array [.object first .closed,
      .array [.array [.text ":0\x7d,[[1,1,1,1,1,1,1,1,1,1,1,1,1,1,1,1,1,1,1,1,-"] .closed,
        .text "0x1"] .closed] .closed)] .closed)] .closed

/-- The part of the balance. -/
def Network.balancePart : Key × Source := (some "balance", .text "0x1")

/-- The part of the address, which ends with this flaw. -/
def Network.addressPart (f : Flaw) : Key × Source :=
  (some "address", .array (List.replicate 20 (.number (.natural 0)) ++ [.flawed f]) .closed)

namespace Network

set_option maxRecDepth 4000 in
theorem document_balance_first :
    ∃ f, Document.ofText (twoAccounts balanceMember addressMember) =
      ⟨twoAccountsTree [balancePart, addressPart f], false⟩ ∧
      f.start.head? = some '"' ∧ f.passed = none := by
  unfold Document.ofText twoAccounts balanceMember addressMember
  simp only [String.toList_append, String.reduceToList, List.cons_append, List.nil_append]
  exact ⟨_, rfl, rfl, rfl⟩

set_option maxRecDepth 4000 in
theorem document_address_first :
    ∃ f, Document.ofText (twoAccounts addressMember balanceMember) =
      ⟨twoAccountsTree [addressPart f, balancePart], false⟩ ∧
      f.start.head? = some '"' ∧ f.passed = none := by
  unfold Document.ofText twoAccounts balanceMember addressMember
  simp only [String.toList_append, String.reduceToList, List.cons_append, List.nil_append]
  exact ⟨_, rfl, rfl, rfl⟩

theorem reorder_twoAccountsTree {f g : Flaw} (hstart : f.start.head? = g.start.head?)
    (hpassed : f.passed = g.passed) :
    (twoAccountsTree [balancePart, addressPart f]).Reorder
      (twoAccountsTree [addressPart g, balancePart]) := by
  have haddress : SameKey Reorder (addressPart f) (addressPart g) :=
    .mk _ (.array _ (List.rel_append (Reorder.refl_items _) (.cons (.flawed hstart hpassed) .nil)))
  have haccount : (object [balancePart, addressPart f] .closed).Reorder
      (object [addressPart g, balancePart] .closed) :=
    .object .closed (.cons (.mk _ (.refl _)) (.cons haddress .nil)) (.swap _ _ _)
  refine .object .closed (.cons (.mk _ (.object .closed ?_ (.refl _))) .nil) (.refl _)
  refine .cons (.mk _ (.refl _)) (.cons (.mk _ (.refl _)) (.cons (.mk _ (.refl _)) ?_))
  exact .cons (.mk _ (.array .closed (.cons haccount (Reorder.refl_items _)))) .nil

/-- The same members make a network in one order and none in the other, when
a text behind the last byte of the address begins with half of a character:
the reader of the address goes on in the middle of the text. -/
theorem order_matters_behind_half_a_character :
    (Document.ofText (twoAccounts balanceMember addressMember)).Reorder
        (Document.ofText (twoAccounts addressMember balanceMember)) ∧
      (Document.ofText (twoAccounts balanceMember addressMember)).value.DistinctKeys ∧
      (Document.ofText (twoAccounts balanceMember addressMember)).value.passOver = none ∧
      (Document.ofText (twoAccounts balanceMember addressMember)).trailing = false ∧
      NamesOneEngine (Document.ofText (twoAccounts balanceMember addressMember)).value ∧
      (Network.ofText (twoAccounts balanceMember addressMember)).isOk = true ∧
      (Network.ofText (twoAccounts addressMember balanceMember)).isOk = false := by
  obtain ⟨f, hf, hstart, hpassed⟩ := document_balance_first
  obtain ⟨g, hg, hstart', hpassed'⟩ := document_address_first
  rw [hf, hg]
  refine ⟨⟨?_, rfl⟩, ?_, ?_, rfl, ?_, by decide +kernel, by decide +kernel⟩
  · exact reorder_twoAccountsTree (hstart.trans hstart'.symm) (hpassed.trans hpassed'.symm)
  · simp [twoAccountsTree, balancePart, addressPart, Source.keys]
  · simp [twoAccountsTree, balancePart, addressPart, passOver, passItems, passMembers, hpassed,
      Closing.passed]
  · intro part hpart ms closing heq
    cases hpart
    cases heq
    exact Nat.le_of_eq rfl

end Network

end Provision
