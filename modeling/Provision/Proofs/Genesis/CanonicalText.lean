/-
Provision.Proofs.Genesis.CanonicalText — the text of a genesis document is a
canonical form.

A document is put together as a list of members (`Assembles`), put into
canonical order and written with a line for each part. What is read from
the text is the document, of which nothing has been lost; the keys of its
objects ascend; and no other document has the same text
(`documentText_is_canonical`).
-/
import Provision.Proofs.Genesis.Document
import Provision.Proofs.Json.Canonical

namespace Provision.Genesis

open Json Source

/-! ## Putting a document together -/

/-- The members of the flat document, in the order in which they are put
together. -/
def Flat.Assembles (d : Flat.Dialect) (g : Genesis) (j : Json) : Prop :=
  ∃ s, Flat.sealOf g = .ok s ∧ j = .obj (Flat.members d g s)

theorem Flat.Assembles.distinctKeys {d : Flat.Dialect} {g : Genesis} {j : Json}
    (h : Flat.Assembles d g j) : j.DistinctKeys := by
  obtain ⟨s, -, rfl⟩ := h
  exact Flat.distinctKeys_members d g s

theorem Flat.exists_assembles {d : Flat.Dialect} {g : Genesis} {doc : Json}
    (h : Flat.document d g = .ok doc) : ∃ j, Flat.Assembles d g j ∧ doc = j.canonical := by
  obtain ⟨s, hs, rfl⟩ := Flat.document_eq_ok_iff.mp h
  exact ⟨_, ⟨s, hs, rfl⟩, rfl⟩

/-- The members of the nested document, in the order in which they are put
together. -/
def Chainspec.Assembles (g : Genesis) (j : Json) : Prop :=
  ∃ engine extra nonce, Chainspec.engineAndExtra? g = some (engine, extra) ∧
    g.nonce.fixedWidth? Chainspec.nonceWidth = some nonce ∧
    j = .obj (Chainspec.members g engine nonce extra)

theorem Chainspec.Assembles.distinctKeys {g : Genesis} {j : Json} (h : Chainspec.Assembles g j) :
    j.DistinctKeys := by
  obtain ⟨engine, extra, nonce, he, -, rfl⟩ := h
  exact Chainspec.distinctKeys_members he nonce

theorem Chainspec.exists_assembles {client : Client} {g : Genesis} {doc : Json}
    (h : Chainspec.document client g = .ok doc) :
    ∃ j, Chainspec.Assembles g j ∧ doc = j.canonical := by
  obtain ⟨engine, extra, nonce, he, hn, rfl⟩ := Chainspec.document_eq_ok_iff.mp h
  exact ⟨_, ⟨engine, extra, nonce, he, hn, rfl⟩, rfl⟩

/-- The members of the document of a client, in the order in which they are
put together. -/
def Assembles (client : Client) (g : Genesis) (j : Json) : Prop :=
  match client with
  | .besu => Flat.Assembles .besu g j
  | .geth => Flat.Assembles .geth g j
  | .nethermind | .openEthereum => Chainspec.Assembles g j

/-- No key stands twice among the members, at any depth. -/
theorem Assembles.distinctKeys {client : Client} {g : Genesis} {j : Json}
    (h : Assembles client g j) : j.DistinctKeys := by
  cases client with
  | besu | geth => exact Flat.Assembles.distinctKeys h
  | nethermind | openEthereum => exact Chainspec.Assembles.distinctKeys h

/-- A document is its members in canonical order. -/
theorem exists_assembles {client : Client} {g : Genesis} {doc : Json}
    (h : g.document client = .ok doc) : ∃ j, Assembles client g j ∧ doc = j.canonical := by
  cases client with
  | besu | geth => exact Flat.exists_assembles h
  | nethermind | openEthereum => exact Chainspec.exists_assembles h

theorem documentText_eq_ok_iff {client : Client} {g : Genesis} {text : String} :
    g.documentText client = .ok text ↔ ∃ doc, g.document client = .ok doc ∧ doc.pretty = text := by
  unfold documentText
  cases g.document client with
  | error e => simp [Except.map]
  | ok doc => simp [Except.map]

/-! ## The text -/

/-- The text is a canonical form of the client's document. -/
structure IsCanonicalText (client : Client) (g : Genesis) (text : String) (doc : Json) : Prop where
  /-- The document is that of the genesis. -/
  document : g.document client = .ok doc
  /-- It is what is read from the text. -/
  parsed : parse? text = some doc
  /-- Its members are those that were put together, in another order. -/
  assembled : ∃ j, Assembles client g j ∧ (ofJson .closed j).Reorder (ofJson .closed doc)
  /-- In every object of the text the keys ascend, in the order of their bytes. -/
  ascending : (Document.ofText text).value.KeysAscend
  /-- No key stands twice in an object. -/
  distinct : (Document.ofText text).value.DistinctKeys
  /-- A text of a genesis is the same exactly when its document is. -/
  unique : ∀ client' g' text' doc', documentText client' g' = .ok text' →
    g'.document client' = .ok doc' → (text = text' ↔ doc = doc')

/-- **Canonical text**: from the text of a genesis its document can be read
again, with all its members, the keys in order, and one text for one
document. -/
theorem documentText_is_canonical {client : Client} {g : Genesis} {text : String}
    (h : g.documentText client = .ok text) : ∃ doc, IsCanonicalText client g text doc := by
  obtain ⟨doc, hdoc, rfl⟩ := documentText_eq_ok_iff.mp h
  obtain ⟨j, hj, rfl⟩ := exists_assembles hdoc
  have hascend : (Document.ofText j.canonical.pretty).value.KeysAscend := by
    rw [Json.pretty, ofText_write Style.isBlank_pretty]
    exact (isCanonical_canonical j).keysAscend .closed
  refine ⟨j.canonical, {
    document := hdoc
    parsed := parse?_write Style.isBlank_pretty j.canonical
    assembled := ⟨j, hj, reorder_canonical .closed hj.distinctKeys⟩
    ascending := hascend
    distinct := hascend.distinctKeys
    unique := by
      intro client' g' text' doc' htext' hdoc'
      obtain ⟨doc'', hdoc'', rfl⟩ := documentText_eq_ok_iff.mp htext'
      rw [hdoc'] at hdoc''
      cases hdoc''
      exact ⟨pretty_injective, congrArg Json.pretty⟩ }⟩

/-- A proof of work with an account of two slots. -/
def withTwoSlots : Genesis :=
  { Genesis.new 1 1 (.ethash {}) with
    accounts := [{ address := .ofLastByte 1, balance := .ofNat 1,
                   storage := some (.ofList [(.ofNat 2, .ofNat 3), (.ofNat 1, .ofNat 4)]) }] }

theorem text_of_two_slots_is_canonical :
    ∃ text doc, withTwoSlots.documentText .nethermind = .ok text ∧
      IsCanonicalText .nethermind withTwoSlots text doc := by
  obtain ⟨doc, hdoc⟩ : ∃ doc, Chainspec.document .nethermind withTwoSlots = .ok doc :=
    Chainspec.exists_document_iff.mpr ⟨by decide, by decide⟩
  have htext : withTwoSlots.documentText .nethermind = .ok doc.pretty :=
    documentText_eq_ok_iff.mpr ⟨doc, hdoc, rfl⟩
  obtain ⟨doc, hcanonical⟩ := documentText_is_canonical htext
  exact ⟨_, doc, htext, hcanonical⟩

end Provision.Genesis
