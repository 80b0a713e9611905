/-
Provision.Proofs.Description — descriptions are read back from their texts.

The descriptions of nodes, of networks and of their parts are written by
lawful codecs, so what was written is read back, whatever the free texts
and numbers in it are. Nothing is said of the text that was read first, and
nothing need be: it may have members in another order, members that are
passed over, and members left out, but once it has been read and written
again the text no longer changes. `ReadsBack` says both, and
`descriptions_are_read_back` that all descriptions do.
-/
import Provision.Network.Layout
import Provision.Node.Layout
import Provision.Proofs.Json.RoundTrip

namespace Provision

open Json

/-- How a description is written again after its text has been read. -/
def rewrite {α : Type} (write : α → Json) (ofText : String → Except Failure α) (text : String) :
    Except Failure String :=
  (ofText text).map fun a => (write a).compact

/-- What is written is read back, and what is read and written again is a
text that stands for the same and is written again as itself. -/
structure ReadsBack {α : Type} (write : α → Json) (ofText : String → Except Failure α) : Prop where
  written : ∀ a, ofText (write a).compact = .ok a
  accepted : ∀ text a, ofText text = .ok a →
    ∃ text', rewrite write ofText text = .ok text' ∧
      ofText text' = .ok a ∧ rewrite write ofText text' = .ok text'

/-- A text is stable once it has been read and written again. -/
theorem readsBack_of_written {α : Type} {write : α → Json} {ofText : String → Except Failure α}
    (h : ∀ a, ofText (write a).compact = .ok a) : ReadsBack write ofText where
  written := h
  accepted text a ha :=
    ⟨(write a).compact, by rw [rewrite, ha]; rfl, h a, by rw [rewrite, h a]; rfl⟩

theorem Json.Codec.Lawful.readsBack {α : Type} {c : Codec α} (hc : c.Lawful) :
    ReadsBack c.write (decodeDocument c.read) :=
  readsBack_of_written hc.decodeDocument_compact

/-- **Descriptions**: nodes, genesis blocks, networks, accounts and fork
schedules are read back from their texts. -/
theorem descriptions_are_read_back :
    ReadsBack Node.layout.encode Node.ofText ∧
    ReadsBack Genesis.encode Genesis.ofText ∧
    ReadsBack Network.layout.encode Network.ofText ∧
    ReadsBack Account.layout.encode Account.ofText ∧
    ReadsBack ForkSchedule.layout.encode ForkSchedule.ofText := by
  have hroom : 2 < Genesis.nestingLimit - 1 := by decide
  exact ⟨Node.layout_lawful.codec_lawful.readsBack, (Genesis.codec_lawful hroom).readsBack,
    Network.layout_lawful.codec_lawful.readsBack, Account.layout_lawful.codec_lawful.readsBack,
    ForkSchedule.layout_lawful.codec_lawful.readsBack⟩

end Provision
