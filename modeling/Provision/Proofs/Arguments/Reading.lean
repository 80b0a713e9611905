/-
Provision.Proofs.Arguments.Reading — command lines are read from left to
right.

A client reads its command line by the flags that it knows: a switch is
one token and a flag with a value is two, and what is no flag of the table
can only be a switch whose name is computed. Two rules may have one flag
where exactly one of them applies (`FlagsExclude.alternatives`). A value
is never taken for a flag, since the flag before it takes it whatever it
looks like (`read_flag`). The one token that may be taken for another is a
computed switch, so that a reader finds what the rules contributed exactly
when none of these is a flag of the table (`read_render_iff`). Only Geth
computes one, from the name of a public network
(`Client.arguments_unambiguous_iff`).
-/
import Provision.Proofs.Arguments.Rules

namespace Provision

/-- The flag of a contribution stands before a value. -/
def Emission.takesValue : Emission → Bool
  | .fixed _ _ | .value _ _ => true
  | .switch _ | .token _ => false

namespace Rule

/-- A part of a command line. -/
structure Piece where
  /-- The flag of the table that it begins with, unless its switch is
  computed. -/
  flag? : Option String
  tokens : List String
deriving DecidableEq

/-- What a rule contributes when it applies. -/
def piece (s : Situation) (r : Rule) : Piece := ⟨r.emission.flag?, r.emission.tokens s⟩

/-- The parts of the command line of a table. -/
def pieces (table : List Rule) (s : Situation) : List Piece :=
  (table.filter fun r => r.applies s).map (piece s)

/-- The rule that has a token as its flag. -/
def named? (table : List Rule) (token : String) : Option Rule :=
  table.find? fun r => r.emission.flag? = some token

/-- Reads on after a flag that stands before a value, or after a part that
is whole. -/
def readAfter (table : List Rule) : Option String → List String → Option (List Piece)
  | none, [] => some []
  | some _, [] => none
  | some flag, value :: rest =>
    (readAfter table none rest).map (⟨some flag, [flag, value]⟩ :: ·)
  | none, token :: rest =>
    match named? table token with
    | some r =>
      if r.emission.takesValue then readAfter table (some token) rest
      else (readAfter table none rest).map (⟨some token, [token]⟩ :: ·)
    | none =>
      if none ∈ flags table then (readAfter table none rest).map (⟨none, [token]⟩ :: ·)
      else none

/-- Reads a command line by the flags of a table, from left to right. -/
def read (table : List Rule) (args : List String) : Option (List Piece) :=
  readAfter table none args

/-- A command line is read as these parts, which make it up, stand in the
order of the table and come from a flag each. -/
structure IsUnambiguous (table : List Rule) (args : List String) (ps : List Piece) : Prop where
  read : read table args = some ps
  consumed : ps.flatMap Piece.tokens = args
  ordered : (ps.map Piece.flag?).Sublist (flags table)
  once : (ps.map Piece.flag?).Nodup

variable {table : List Rule} {s : Situation} {r : Rule}

/-! ## Parts -/

theorem pieces_cons (r : Rule) (table : List Rule) (s : Situation) :
    pieces (r :: table) s =
      if r.applies s = true then piece s r :: pieces table s else pieces table s := by
  by_cases h : r.applies s = true <;> simp [pieces, h]

theorem flatMap_pieces (table : List Rule) (s : Situation) :
    (pieces table s).flatMap Piece.tokens = render table s := by
  induction table with
  | nil => rfl
  | cons r table ih =>
    rw [pieces_cons, render_cons, tokens, ← ih]
    by_cases h : r.applies s = true <;> simp [h, piece]

theorem map_flag?_pieces (table : List Rule) (s : Situation) :
    (pieces table s).map Piece.flag? = flags (table.filter fun r => r.applies s) := by
  rw [pieces, List.map_map]
  rfl

theorem ordered_pieces (table : List Rule) (s : Situation) :
    ((pieces table s).map Piece.flag?).Sublist (flags table) := by
  rw [map_flag?_pieces]
  exact List.filter_sublist.map _

/-! ## Flags that two rules have -/

/-- Two rules with one flag agree on whether it stands before a value, and
never apply both. -/
def FlagsExclude (table : List Rule) : Prop :=
  table.Pairwise fun a b => a.emission.flag? = b.emission.flag? →
    a.emission.takesValue = b.emission.takesValue ∧
      ∀ s, ¬ (a.applies s = true ∧ b.applies s = true)

theorem FlagsExclude.of_nodup (h : (flags table).Nodup) : FlagsExclude table :=
  (List.pairwise_map.mp h).imp fun hne heq => absurd heq hne

theorem FlagsExclude.cons (hnew : r.emission.flag? ∉ flags table) (h : FlagsExclude table) :
    FlagsExclude (r :: table) := by
  refine List.pairwise_cons.mpr ⟨fun r' hr' heq => ?_, h⟩
  exact absurd (List.mem_map.mpr ⟨r', hr', heq.symm⟩) hnew

/-- Two rules may have one flag where exactly one of them applies. -/
theorem FlagsExclude.alternatives {r₁ r₂ : Rule} (hone : ∀ s, r₁.applies s = !r₂.applies s)
    (htakes : r₁.emission.takesValue = r₂.emission.takesValue)
    (hflag : r₁.emission.flag? = r₂.emission.flag?) (h : (flags (r₁ :: table)).Nodup) :
    FlagsExclude (r₁ :: r₂ :: table) := by
  have hnew : r₁.emission.flag? ∉ flags table := (List.nodup_cons.mp h).1
  have hback : FlagsExclude table := .of_nodup (List.nodup_cons.mp h).2
  refine List.pairwise_cons.mpr ⟨?_, hback.cons (hflag ▸ hnew)⟩
  intro r' hr' heq
  rcases List.mem_cons.mp hr' with rfl | hr'
  · refine ⟨htakes, fun s hboth => ?_⟩
    rw [hone] at hboth
    cases h₂ : r'.applies s <;> simp [h₂] at hboth
  · exact absurd (List.mem_map.mpr ⟨r', hr', heq.symm⟩) hnew

theorem FlagsExclude.takesValue_eq (h : FlagsExclude table) {r' : Rule} (hr : r ∈ table)
    (hr' : r' ∈ table) (hflag : r.emission.flag? = r'.emission.flag?) :
    r.emission.takesValue = r'.emission.takesValue := by
  have hpairs : table.Pairwise fun a b => a.emission.flag? = b.emission.flag? →
      a.emission.takesValue = b.emission.takesValue := h.imp fun hab heq => (hab heq).1
  have hflip : table.Pairwise fun a b => b.emission.flag? = a.emission.flag? →
      b.emission.takesValue = a.emission.takesValue :=
    hpairs.imp fun hab heq => (hab heq.symm).symm
  exact hpairs.forall_of_forall_of_flip (fun _ _ _ => rfl) hflip hr hr' hflag

/-- No flag stands twice. -/
theorem FlagsExclude.nodup (h : FlagsExclude table) (s : Situation) :
    ((pieces table s).map Piece.flag?).Nodup := by
  rw [map_flag?_pieces, flags]
  refine List.pairwise_map.mpr ((h.filter _).imp_of_mem ?_)
  intro a b ha hb hab heq
  exact (hab heq).2 s ⟨(List.mem_filter.mp ha).2, (List.mem_filter.mp hb).2⟩

/-! ## Reading -/

theorem named?_eq_none_iff {token : String} :
    named? table token = none ↔ some token ∉ flags table := by
  simp [named?, flags]

theorem takesValue_of_named? (h : FlagsExclude table) (hr : r ∈ table) {flag : String}
    (hflag : r.emission.flag? = some flag) :
    ∃ r', named? table flag = some r' ∧ r'.emission.takesValue = r.emission.takesValue := by
  cases hfind : named? table flag with
  | none => exact absurd (List.mem_map.mpr ⟨r, hr, hflag⟩) (named?_eq_none_iff.mp hfind)
  | some r' =>
    have hr' := List.mem_of_find?_eq_some hfind
    have hflag' : r'.emission.flag? = some flag := by simpa using List.find?_some hfind
    exact ⟨r', rfl, h.takesValue_eq hr' hr (hflag'.trans hflag.symm)⟩

/-- A flag is read with what it takes, whatever the value looks like. -/
theorem read_flag (h : FlagsExclude table) (hr : r ∈ table) {flag : String}
    (hflag : r.emission.flag? = some flag) (s : Situation) (rest : List String) :
    read table (r.emission.tokens s ++ rest) = (read table rest).map (piece s r :: ·) := by
  obtain ⟨r', hnamed, htakes⟩ := takesValue_of_named? h hr hflag
  cases he : r.emission with
  | token text =>
    rw [he] at hflag
    cases hflag
  | switch f =>
    rw [he] at hflag htakes
    cases hflag
    have hno : r'.emission.takesValue = false := htakes
    simp [Emission.tokens, read, readAfter, hnamed, hno, piece, he, Emission.flag?]
  | fixed f text | value f text =>
    rw [he] at hflag htakes
    cases hflag
    have hyes : r'.emission.takesValue = true := htakes
    simp [Emission.tokens, read, readAfter, hnamed, hyes, piece, he, Emission.flag?]

/-- What is no flag of the table is read as a computed switch. -/
theorem read_token (hr : r ∈ table) {text : Situation → String} (he : r.emission = .token text)
    {s : Situation} (hnew : some (text s) ∉ flags table) (rest : List String) :
    read table (r.emission.tokens s ++ rest) = (read table rest).map (piece s r :: ·) := by
  have hnone : none ∈ flags table := List.mem_map.mpr ⟨r, hr, by rw [he, Emission.flag?]⟩
  have hnamed := named?_eq_none_iff.mpr hnew
  simp [he, Emission.tokens, read, readAfter, hnamed, hnone, piece, Emission.flag?]

/-- A flag of the table is read as that flag, wherever it comes from. -/
theorem flag?_of_read {token : String} {rest : List String} {p : Piece} {ps : List Piece}
    (hflag : some token ∈ flags table) (h : read table (token :: rest) = some (p :: ps)) :
    p.flag? = some token := by
  cases hnamed : named? table token with
  | none => exact absurd hflag (named?_eq_none_iff.mp hnamed)
  | some r =>
    cases htakes : r.emission.takesValue with
    | false =>
      simp only [read, readAfter, hnamed, htakes, Bool.false_eq_true, if_false] at h
      obtain ⟨_, -, heq⟩ := Option.map_eq_some_iff.mp h
      cases heq
      rfl
    | true =>
      simp only [read, readAfter, hnamed, htakes, if_true] at h
      cases rest with
      | nil => cases h
      | cons value rest =>
        obtain ⟨_, -, heq⟩ := Option.map_eq_some_iff.mp h
        cases heq
        rfl

/-- The computed switches among the parts of a command line are no flags of
a table. -/
def AreNew (table : List Rule) (ps : List Piece) : Prop :=
  ∀ p ∈ ps, p.flag? = none → ∀ token ∈ p.tokens, some token ∉ flags table

theorem areNew_cons {p : Piece} {ps : List Piece} :
    AreNew table (p :: ps) ↔
      (p.flag? = none → ∀ token ∈ p.tokens, some token ∉ flags table) ∧ AreNew table ps := by
  simp [AreNew]

theorem areNew_pieces_cons {rules : List Rule} :
    AreNew table (pieces (r :: rules) s) ↔
      (r.applies s = true → r.emission.flag? = none →
        ∀ token ∈ r.emission.tokens s, some token ∉ flags table) ∧
      AreNew table (pieces rules s) := by
  rw [pieces_cons]
  by_cases h : r.applies s = true
  · simp [h, areNew_cons, piece]
  · simp [h]

/-- Rules that all have a flag compute no switch. -/
theorem areNew_of_not_mem {rules : List Rule} (h : none ∉ flags rules) (table : List Rule)
    (s : Situation) : AreNew table (pieces rules s) := by
  intro p hp hflag
  have hmem := (ordered_pieces rules s).subset (List.mem_map.mpr ⟨p, hp, hflag⟩)
  exact absurd hmem h

theorem map_cons_eq_some_iff {α : Type} {a : α} {o : Option (List α)} {l : List α} :
    o.map (a :: ·) = some (a :: l) ↔ o = some l := by
  cases o <;> simp

/-- The first part is read as what it is unless it is a switch that is not new. -/
theorem read_tokens_iff (h : FlagsExclude table) (hr : r ∈ table) (s : Situation)
    (rest : List String) (ps : List Piece) :
    read table (r.emission.tokens s ++ rest) = some (piece s r :: ps) ↔
      ((piece s r).flag? = none → ∀ token ∈ (piece s r).tokens, some token ∉ flags table) ∧
        read table rest = some ps := by
  cases hflag : r.emission.flag? with
  | some flag =>
    rw [read_flag h hr hflag, map_cons_eq_some_iff]
    simp [piece, hflag]
  | none =>
    cases he : r.emission with
    | switch f | fixed f text | value f text =>
      rw [he] at hflag
      cases hflag
    | token text =>
      have hpiece : piece s r = ⟨none, [text s]⟩ := by
        simp [piece, he, Emission.flag?, Emission.tokens]
      by_cases hnew : some (text s) ∈ flags table
      · -- The reader takes the switch for the flag, and the part has none.
        have hother : ¬ read table (text s :: rest) = some (⟨none, [text s]⟩ :: ps) := by
          intro hread
          have hwrong := flag?_of_read hnew hread
          cases hwrong
        simp [Emission.tokens, hpiece, hother, hnew]
      · rw [← he, read_token hr he hnew, map_cons_eq_some_iff]
        simp [hpiece, hnew]

/-- **Reading**: a reader finds the parts that the rules contributed exactly
when no computed switch is a flag of the table. -/
theorem read_render_iff (h : FlagsExclude table) {rules : List Rule}
    (hrules : ∀ r ∈ rules, r ∈ table) (s : Situation) :
    read table (render rules s) = some (pieces rules s) ↔ AreNew table (pieces rules s) := by
  induction rules with
  | nil => simp [read, readAfter, render, pieces, AreNew]
  | cons r rules ih =>
    have ih := ih fun r' hr' => hrules r' (List.mem_cons_of_mem _ hr')
    rw [render_cons, pieces_cons, tokens]
    by_cases happlies : r.applies s = true
    · rw [if_pos happlies, if_pos happlies, areNew_cons, ← ih]
      exact read_tokens_iff h (hrules r List.mem_cons_self) s _ _
    · rw [if_neg happlies, if_neg happlies, List.nil_append]
      exact ih

end Rule

/-! ## The tables of the clients -/

theorem Client.flagsExclude_table (c : Client) : Rule.FlagsExclude c.table := by
  cases c with
  | besu => exact .of_nodup (by decide)
  | geth => exact .of_nodup (by decide)
  | nethermind => exact .cons (by decide) (.alternatives (fun _ => rfl) rfl rfl (by decide))
  | openEthereum => exact .cons (by decide) (.alternatives (fun _ => rfl) rfl rfl (by decide))

theorem Geth.joinsOther_iff {s : Situation} :
    joinsOther s = true ↔ s.network.isPrivate = false ∧ s.network.publicName ≠ "mainnet" := by
  simp only [joinsOther, Situation.isPublic, Network.isMainnet]
  cases s.network.isPrivate <;> simp

/-- The one switch that Geth computes is the name of a public network. -/
theorem Geth.areNew_pieces_iff (s : Situation) :
    Rule.AreNew table (Rule.pieces table s) ↔
      (joinsOther s = true → some (networkFlag s) ∉ Rule.flags table) := by
  have hrest : Rule.AreNew table (Rule.pieces (table.drop 2) s) :=
    Rule.areNew_of_not_mem (by decide) table s
  show Rule.AreNew table (Rule.pieces (.always (.value "--datadir" Situation.dataDirectory) ::
    .given joinsOther (.token networkFlag) :: table.drop 2) s) ↔ _
  simp [Rule.areNew_pieces_cons, hrest, Rule.always, Rule.given, Emission.flag?, Emission.tokens]

namespace Client

/-- The parts that a client's rules contribute to its command line. -/
def pieces (c : Client) (node : Node) (network : Network) : List Rule.Piece :=
  Rule.pieces c.table ⟨node, network, c.homeDirectory⟩

/-- Geth alone computes a switch. -/
theorem none_not_mem_flags {c : Client} (hc : c ≠ .geth) : none ∉ Rule.flags c.table := by
  cases c with
  | geth => exact absurd rfl hc
  | besu | nethermind | openEthereum => decide

theorem isUnambiguous_iff (c : Client) (node : Node) (network : Network) :
    Rule.IsUnambiguous c.table (c.arguments node network) (c.pieces node network) ↔
      Rule.AreNew c.table (c.pieces node network) := by
  have hread := Rule.read_render_iff c.flagsExclude_table (fun _ hr => hr)
    ⟨node, network, c.homeDirectory⟩
  constructor
  · intro h
    exact hread.mp h.read
  · intro h
    exact ⟨hread.mpr h, Rule.flatMap_pieces _ _, Rule.ordered_pieces _ _,
      c.flagsExclude_table.nodup _⟩

/-- **Flags**: the command line of every client reads back as what the rules
of its table contributed, each flag once and in the order of the table.
Geth's does so unless it joins a public network whose name is that of
another flag. -/
theorem arguments_unambiguous_iff (c : Client) (node : Node) (network : Network) :
    Rule.IsUnambiguous c.table (c.arguments node network) (c.pieces node network) ↔
      (c = .geth → network.isPrivate = false → network.publicName ≠ "mainnet" →
        some ("--" ++ network.publicName) ∉ Rule.flags Geth.table) := by
  rw [isUnambiguous_iff]
  by_cases hc : c = .geth
  · rw [hc]
    have hgeth := Geth.areNew_pieces_iff ⟨node, network, Client.geth.homeDirectory⟩
    rw [Geth.joinsOther_iff, and_imp] at hgeth
    exact hgeth.trans ⟨fun h _ => h, fun h => h rfl⟩
  · have hnew := Rule.areNew_of_not_mem (none_not_mem_flags hc) c.table
      ⟨node, network, c.homeDirectory⟩
    exact iff_of_true hnew fun h => absurd h hc

/-- A network by the name of another flag turns that flag on, and where it
is on already it stands twice. -/
theorem network_named_like_a_flag :
    (Network.joined "http").validate = .ok () ∧ some "--http" ∈ Rule.flags Geth.table ∧
      "--http" ∈ Client.geth.arguments { client := .geth } (.joined "http") ∧
      ∀ ps, ¬ Rule.IsUnambiguous Geth.table
        (Client.geth.arguments { client := .geth, rpc := true } (.joined "http")) ps := by
  refine ⟨rfl, by decide, by decide, fun ps h => ?_⟩
  have hflags : (Rule.read Geth.table
      (Client.geth.arguments { client := .geth, rpc := true } (.joined "http"))).map
        (List.map Rule.Piece.flag?) =
      some [some "--datadir", some "--http", some "--port", some "--syncmode", some "--verbosity",
        some "--http", some "--http.addr", some "--http.port", some "--http.api",
        some "--http.vhosts", some "--http.corsdomain"] := by
    decide
  rw [h.read, Option.map_some, Option.some.injEq] at hflags
  have honce := h.once
  rw [hflags] at honce
  exact absurd honce (by decide)

end Client

end Provision
