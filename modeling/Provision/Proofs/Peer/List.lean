/-
Provision.Proofs.Peer.List — the peers are read back from every list of them.

The addresses of peers end up in four kinds of text: a JSON array, the
configuration of Geth, a line for each address, and a value on a command
line with commas in between. None of the characters of an address means
anything in any of these: it has neither quotation marks nor backslashes,
newlines or commas (`isAddressChar_of_mem`). So nothing is escaped, no
address is taken for two, and what is read back is the list
(`peers_are_read_back`).
-/
import Mathlib.Data.List.Nodup
import Provision.Peer.List
import Provision.Proofs.Arguments.Reading
import Provision.Proofs.Json.RoundTrip

namespace Provision

/-! ## Texts between quotation marks -/

namespace Json

/-- Characters outside ASCII stand for themselves. -/
theorem escape_of_not_ascii {c : Char} (h : 0x80 ≤ c.toNat) : escape c = [c] := by
  have hne {d : Char} (hd : d.toNat < 0x80) : c ≠ d := by
    rintro rfl
    omega
  have hcontrol : ¬ c.toNat < 0x20 := by omega
  simp only [escape, hne (d := '"') (by decide), hne (d := '\\') (by decide),
    hne (d := '\n') (by decide), hne (d := '\r') (by decide), hne (d := '\t') (by decide),
    hne (d := '\x08') (by decide), hne (d := '\x0c') (by decide), hcontrol, if_false]

/-- A text whose characters stand for themselves is quoted as it is. -/
theorem quote_of_plain {t : String} (h : ∀ c ∈ t.toList, escape c = [c]) :
    quote t = '"' :: (t.toList ++ ['"']) := by
  rw [quote, List.flatMap_congr h, List.flatMap_singleton']

/-- Texts that are the elements of an array have commas in between. -/
theorem quote_writeItems (depth : Nat) (t : String) (ts : List String) :
    quote t ++ Style.compact.writeItems depth (ts.map .str) =
      [','].intercalate ((t :: ts).map quote) := by
  induction ts generalizing t with
  | nil => simp [Style.writeItems]
  | cons u ts ih =>
    have hback := ih u
    rw [List.map_cons] at hback
    rw [List.map_cons, List.map_cons, List.map_cons, List.intercalate_cons_cons, ← hback]
    simp [Style.writeItems, Style.write, Style.compact]

theorem toList_compact_texts (ts : List String) :
    (compact (.arr (ts.map .str))).toList = '[' :: ([','].intercalate (ts.map quote) ++ [']']) := by
  rw [compact, String.toList_ofList]
  cases ts with
  | nil => rfl
  | cons t ts =>
    rw [← quote_writeItems 1 t ts]
    simp [Style.write, Style.compact]

/-- Texts whose characters stand for themselves are the elements of an array
as they are. -/
theorem compact_texts_of_plain {ts : List String}
    (h : ∀ t ∈ ts, ∀ c ∈ t.toList, escape c = [c]) :
    compact (.arr (ts.map .str)) =
      "[" ++ ",".intercalate (ts.map fun t => "\"" ++ t ++ "\"") ++ "]" := by
  have hquote : ts.map quote = (ts.map fun t => "\"" ++ t ++ "\"").map String.toList := by
    rw [List.map_map]
    exact List.map_congr_left fun t ht => by simp [quote_of_plain (h t ht)]
  rw [← String.toList_inj, toList_compact_texts, hquote]
  simp [String.toList_intercalate]

end Json

namespace Enode

theorem escape_of_isAddressChar {c : Char} (h : isAddressChar c = true) : Json.escape c = [c] := by
  revert h
  exact Hex.forall_char (P := fun c => isAddressChar c = true → Json.escape c = [c]) (by decide)
    (fun c hc _ => Json.escape_of_not_ascii hc) c

/-! ## The files of peers -/

/-- Addresses stand in an array as they are. -/
theorem compact_listJson (es : List Enode) :
    (listJson es).compact =
      "[" ++ ",".intercalate (es.map fun e => "\"" ++ e.text ++ "\"") ++ "]" := by
  have hplain : ∀ t ∈ es.map text, ∀ c ∈ t.toList, Json.escape c = [c] := by
    intro t ht c hc
    obtain ⟨e, -, rfl⟩ := List.mem_map.mp ht
    exact escape_of_isAddressChar (isAddressChar_of_mem hc)
  have hjson : listJson es = .arr ((es.map text).map .str) := by simp [listJson]
  rw [hjson, Json.compact_texts_of_plain hplain, List.map_map]
  rfl

theorem parse?_compact_listJson (es : List Enode) :
    Json.parse? (listJson es).compact = some (.arr (es.map fun e => .str e.text)) :=
  Json.parse?_write Json.Style.isBlank_compact (listJson es)

theorem linesOf_listLines (es : List Enode) :
    Text.linesOf (listLines es).toList = es.map fun e => e.text.toList := by
  rw [listLines, String.toList_intercalate, List.map_map]
  refine Text.linesOf_intercalate fun l hl => ?_
  obtain ⟨e, -, rfl⟩ := List.mem_map.mp hl
  refine ⟨fun hnil => e.isEntry_text.1 (String.toList_inj.mp hnil), ?_, ?_⟩
  · exact fun hc => absurd (isAddressChar_of_mem hc) (by decide)
  · exact fun hc => absurd (isAddressChar_of_mem hc) (by decide)

end Enode

/-! ## The command line -/

namespace Client

/-- The flag before the nodes to find peers from. -/
def bootnodesFlag : Client → String
  | .besu | .geth | .openEthereum => "--bootnodes"
  | .nethermind => "--Discovery.Bootnodes"

/-- Every client has a rule for the nodes to find peers from. -/
theorem bootnodes_mem_table (c : Client) :
    .given Situation.hasBootnodes (.value c.bootnodesFlag Situation.bootnodes) ∈ c.table := by
  cases c <;> simp [table, bootnodesFlag, Besu.table, Geth.table, Nethermind.table,
    OpenEthereum.table]

end Client

namespace Rule

variable {table : List Rule} {s : Situation} {r : Rule}

/-- A part stands on the command line in one piece. -/
theorem Piece.tokens_infix {p : Piece} (h : p ∈ pieces table s) : p.tokens <:+: render table s := by
  rw [← flatMap_pieces, List.flatMap_def]
  exact List.infix_of_mem_flatten (List.mem_map_of_mem h)

theorem piece_mem_pieces (hr : r ∈ table) (happlies : r.applies s = true) :
    piece s r ∈ pieces table s :=
  List.mem_map_of_mem (List.mem_filter.mpr ⟨hr, happlies⟩)

/-- No two parts have the same flag. -/
theorem FlagsExclude.eq_of_flag?_eq (h : FlagsExclude table) {p q : Piece}
    (hp : p ∈ pieces table s) (hq : q ∈ pieces table s) (hflag : p.flag? = q.flag?) : p = q :=
  List.inj_on_of_nodup_map (h.nodup s) hp hq hflag

end Rule

theorem Situation.pieces_bootnodes {s : Situation} (h : s.node.bootnodes ≠ []) :
    Text.pieces ',' s.bootnodes.toList = s.node.bootnodes.map fun e => e.text.toList := by
  rw [bootnodes, Text.pieces_list (mt List.map_eq_nil_iff.mp h)
    fun _ => Enode.isEntry_of_mem_texts, List.map_map]
  rfl

/-- A command line tells of the nodes to find peers from by one flag, which
has all of them behind it. -/
theorem Client.exists_bootnodes_value (c : Client) {node : Node} (network : Network)
    (h : node.bootnodes ≠ []) :
    ∃ value, [c.bootnodesFlag, value] <:+: c.arguments node network ∧
      (∀ p ∈ c.pieces node network, p.flag? = some c.bootnodesFlag →
        p.tokens = [c.bootnodesFlag, value]) ∧
      Text.pieces ',' value.toList = node.bootnodes.map fun e => e.text.toList := by
  have happlies : Situation.hasBootnodes ⟨node, network, c.homeDirectory⟩ = true := by
    simp [Situation.hasBootnodes, h]
  have hpiece := Rule.piece_mem_pieces c.bootnodes_mem_table happlies
  refine ⟨_, Rule.Piece.tokens_infix hpiece, fun p hp hflag => ?_, Situation.pieces_bootnodes h⟩
  rw [c.flagsExclude_table.eq_of_flag?_eq hp hpiece hflag]
  rfl

/-! ## All of them -/

namespace Enode

/-- **Peers**: whatever addresses are listed, the array of Besu and of
Nethermind holds just these, in order, and so does the array in the
configuration of Geth, where each of them stands between quotation marks as
it is; they are the lines of OpenEthereum's file and, if there are any, the
parts between the commas of the value behind the one flag that tells each
client of them. For an address is never empty and is made of letters, digits
and a few marks. -/
theorem peers_are_read_back (es : List Enode) :
    Json.parse? (listText .besu es) = some (.arr (es.map fun e => .str e.text)) ∧
      Json.parse? (listText .nethermind es) = some (.arr (es.map fun e => .str e.text)) ∧
      (∃ array, listText .geth es = "[Node.P2P]\nStaticNodes = " ++ array ∧
        array = "[" ++ ",".intercalate (es.map fun e => "\"" ++ e.text ++ "\"") ++ "]" ∧
        Json.parse? array = some (.arr (es.map fun e => .str e.text))) ∧
      Text.linesOf (listText .openEthereum es).toList = (es.map fun e => e.text.toList) ∧
      (∀ (c : Client) (node : Node) (network : Network), node.bootnodes = es → es ≠ [] →
        ∃ value, [c.bootnodesFlag, value] <:+: c.arguments node network ∧
          (∀ p ∈ c.pieces node network, p.flag? = some c.bootnodesFlag →
            p.tokens = [c.bootnodesFlag, value]) ∧
          Text.pieces ',' value.toList = es.map fun e => e.text.toList) ∧
      ∀ (s : String) (e : Enode), ofText s = .ok e →
        e.text = s ∧ s ≠ "" ∧ ∀ c ∈ s.toList, isAddressChar c = true := by
  refine ⟨parse?_compact_listJson es, parse?_compact_listJson es, ?_, linesOf_listLines es, ?_, ?_⟩
  · exact ⟨_, rfl, compact_listJson es, parse?_compact_listJson es⟩
  · rintro c node network rfl hne
    exact c.exists_bootnodes_value network hne
  · intro s e h
    obtain rfl := text_eq_of_ofText h
    exact ⟨rfl, e.isEntry_text.1, fun _ => isAddressChar_of_mem⟩

end Enode

end Provision
