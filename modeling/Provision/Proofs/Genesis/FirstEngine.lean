/-
Provision.Proofs.Genesis.FirstEngine — which engine a genesis is read with.

A description names an engine by a member of its object, and nothing keeps
it from naming two. The first in the order of the text is the engine of the
genesis; those after it are taken into memory and forgotten, whatever their
parameters are, so the text is accepted exactly when it is without them.
Where one member names an engine, the order of the members says nothing
about it; where two do, it decides the consensus of the network
(`consensus_turns_on_the_order_of_engines`).
-/
import Provision.Network.Layout
import Provision.Proofs.Json.Members

namespace Provision.Genesis

open Json

/-! ## Members that name an engine -/

/-- The member has the key of an engine. -/
def NamesEngine (m : Key × Source) : Prop :=
  m.1 ∈ [some "ethash", some "clique", some "ibft2"]

instance : DecidablePred NamesEngine := fun m => inferInstanceAs (Decidable (m.1 ∈ _))

/-- The members without those that name an engine after the first. -/
def firstEngineOnly : List (Key × Source) → List (Key × Source)
  | [] => []
  | m :: rest =>
    if NamesEngine m then m :: rest.filter (¬ NamesEngine ·) else m :: firstEngineOnly rest

/-- The members that name an engine after the first. -/
def laterEngines (members : List (Key × Source)) : List (Key × Source) :=
  (members.filter (NamesEngine ·)).tail

/-- A member that has the key of an engine has a reader, and no other. -/
theorem namesEngine_iff {name : String} {value : Source} :
    NamesEngine (some name, value) ↔ ∃ read, Engine.decoders.lookup name = some read := by
  rw [← Option.isSome_iff_exists, List.lookup_isSome_iff]
  simp [NamesEngine, Engine.decoders]

/-- The key of an engine is none of a shared term. -/
theorem field?_of_namesEngine {m : Key × Source} (h : NamesEngine m) :
    ∃ name, m.1 = some name ∧ Terms.layout.field? name = none := by
  obtain ⟨key, value⟩ := m
  simp only [NamesEngine, List.mem_cons, List.not_mem_nil, or_false] at h
  rcases h with rfl | rfl | rfl <;> exact ⟨_, rfl, rfl⟩

/-- An engine has the key under which its reader stands. -/
theorem key_of_lookup {name : String} {read : Decoder Engine} {held : Source} {e : Engine}
    (hread : Engine.decoders.lookup name = some read) (he : read held = .ok e) : e.key = name := by
  have hmem : (name, read) ∈ Engine.decoders := by
    obtain ⟨before, after, heq, -⟩ := List.lookup_eq_some_iff.mp hread
    simp [heq]
  simp only [Engine.decoders, List.mem_cons, Prod.mk.injEq, List.not_mem_nil, or_false] at hmem
  rcases hmem with ⟨rfl, rfl⟩ | ⟨rfl, rfl⟩ | ⟨rfl, rfl⟩
  all_goals
    obtain ⟨c, -, rfl⟩ := map_eq_ok_iff.mp he
    rfl

/-! ## Meeting the engine -/

variable {room : Nat}

/-- Once an engine has been met, a member has only to fit into memory. -/
theorem meetMember_some_eq_ok_iff {met : MetEngine} {name : String} {value : Source}
    {state : Option MetEngine} :
    meetMember room (some met) name value = .ok state ↔
      state = some met ∧ ∃ held, value.hold room = .ok held := by
  unfold meetMember
  cases value.hold room with
  | error f => simp [fail]
  | ok held => simp [eq_comm]

/-- Before that, it is met under the key of an engine. -/
theorem meetMember_none_eq_ok_iff {name : String} {value : Source} {state : Option MetEngine} :
    meetMember room none name value = .ok state ↔
      ∃ held, value.hold room = .ok held ∧
        state = (Engine.decoders.lookup name).map fun read => (read, held) := by
  unfold meetMember
  cases value.hold room with
  | error f => simp [fail]
  | ok held =>
    cases Engine.decoders.lookup name with
    | none => simp [eq_comm]
    | some read => simp [eq_comm]

/-- A member of another key meets no engine. -/
theorem eq_none_of_meetMember {name : String} {value : Source} {state : Option MetEngine}
    (hnames : ¬ NamesEngine (some name, value)) (h : meetMember room none name value = .ok state) :
    state = none := by
  obtain ⟨held, -, rfl⟩ := meetMember_none_eq_ok_iff.mp h
  rw [namesEngine_iff, ← Option.isSome_iff_exists, Option.not_isSome_iff_eq_none] at hnames
  rw [hnames, Option.map_none]

/-- The engine that has been met is the one that counts. -/
theorem met_of_takeMembers {members : List (Key × Source)} {found : Terms.layout.Values}
    {met : MetEngine} {r : Terms.layout.Values × Option MetEngine}
    (h : Terms.layout.takeMembers (meetMember room) members found (some met) = .ok r) :
    r.2 = some met := by
  induction members generalizing found with
  | nil =>
    cases h
    rfl
  | cons m rest ih =>
    obtain ⟨name, -, hfield | hother⟩ := Layout.takeMembers_cons_eq_ok_iff.mp h
    · obtain ⟨f, v, -, -, -, hrest⟩ := hfield
      exact ih hrest
    · obtain ⟨state, -, hmeet, hrest⟩ := hother
      obtain ⟨rfl, -⟩ := meetMember_some_eq_ok_iff.mp hmeet
      exact ih hrest

/-- The first member that names an engine is where one is met. -/
theorem takeMembers_cons_of_lookup {name : String} {read : Decoder Engine}
    (hread : Engine.decoders.lookup name = some read) {value : Source}
    {rest : List (Key × Source)} {found : Terms.layout.Values}
    {r : Terms.layout.Values × Option MetEngine} :
    Terms.layout.takeMembers (meetMember room) ((some name, value) :: rest) found none = .ok r ↔
      ∃ held, value.hold room = .ok held ∧
        Terms.layout.takeMembers (meetMember room) rest found (some (read, held)) = .ok r := by
  have hnames : NamesEngine (some name, value) := namesEngine_iff.mpr ⟨read, hread⟩
  obtain ⟨_, ⟨⟩, hfield⟩ := field?_of_namesEngine hnames
  rw [Layout.takeMembers_cons_eq_ok_iff]
  constructor
  · rintro ⟨_, ⟨⟩, ⟨f, v, hf, -⟩ | ⟨state, -, hmeet, hrest⟩⟩
    · rw [hfield] at hf
      cases hf
    · obtain ⟨held, hheld, rfl⟩ := meetMember_none_eq_ok_iff.mp hmeet
      rw [hread] at hrest
      exact ⟨held, hheld, hrest⟩
  · rintro ⟨held, hheld, hrest⟩
    have hmeet : meetMember room none name value = .ok (some (read, held)) :=
      meetMember_none_eq_ok_iff.mpr ⟨held, hheld, by rw [hread, Option.map_some]⟩
    exact ⟨name, rfl, .inr ⟨_, hfield, hmeet, hrest⟩⟩

/-- The engine that is met stands in the first member that names one. -/
theorem find?_of_takeMembers {members : List (Key × Source)} {found : Terms.layout.Values}
    {met : MetEngine} {r : Terms.layout.Values × Option MetEngine}
    (h : Terms.layout.takeMembers (meetMember room) members found none = .ok r)
    (hmet : r.2 = some met) :
    ∃ name value, members.find? (NamesEngine ·) = some (some name, value) ∧
      Engine.decoders.lookup name = some met.1 ∧ value.hold room = .ok met.2 := by
  induction members generalizing found with
  | nil =>
    cases h
    cases hmet
  | cons m rest ih =>
    obtain ⟨key, value⟩ := m
    by_cases hnames : NamesEngine (key, value)
    · obtain ⟨name, rfl, -⟩ := field?_of_namesEngine hnames
      obtain ⟨read, hread⟩ := namesEngine_iff.mp hnames
      obtain ⟨held, hheld, hrest⟩ := (takeMembers_cons_of_lookup hread).mp h
      rw [met_of_takeMembers hrest] at hmet
      cases hmet
      exact ⟨name, value, List.find?_cons_of_pos (by simpa using hnames), hread, hheld⟩
    · rw [List.find?_cons_of_neg (by simpa using hnames)]
      obtain ⟨name, rfl, hfield | hother⟩ := Layout.takeMembers_cons_eq_ok_iff.mp h
      · obtain ⟨f, v, -, -, -, hrest⟩ := hfield
        exact ih hrest
      · obtain ⟨state, -, hmeet, hrest⟩ := hother
        obtain rfl := eq_none_of_meetMember hnames hmeet
        exact ih hrest

/-- Once an engine has been met, the members that name one have only to fit
into memory. -/
theorem takeMembers_of_met {members : List (Key × Source)} {found : Terms.layout.Values}
    {met : MetEngine} {r : Terms.layout.Values × Option MetEngine} :
    Terms.layout.takeMembers (meetMember room) members found (some met) = .ok r ↔
      Terms.layout.takeMembers (meetMember room) (members.filter (¬ NamesEngine ·)) found
          (some met) = .ok r ∧
        ∀ m ∈ members.filter (NamesEngine ·), ∃ held, m.2.hold room = .ok held := by
  have hsame : ∀ name value state, meetMember room (some met) name value = .ok state →
      state = some met := fun _ _ _ h => (meetMember_some_eq_ok_iff.mp h).1
  rw [Layout.takeMembers_filter (fun m => decide (¬ NamesEngine m)) hsame
    fun m _ hm => field?_of_namesEngine (by simpa using hm)]
  refine and_congr_right fun _ => ⟨fun hall m hm => ?_, fun hall m hm hk => ?_⟩
  · obtain ⟨hm, hnames⟩ := List.mem_filter.mp hm
    obtain ⟨name, -, hmeet⟩ := hall m hm (by simpa using hnames)
    exact (meetMember_some_eq_ok_iff.mp hmeet).2
  · have hnames : NamesEngine m := by simpa using hk
    obtain ⟨name, hname, -⟩ := field?_of_namesEngine hnames
    have hheld := hall m (List.mem_filter.mpr ⟨hm, by simpa using hnames⟩)
    exact ⟨name, hname, meetMember_some_eq_ok_iff.mpr ⟨rfl, hheld⟩⟩

/-- The members that name an engine after the first have only to fit into
memory. -/
theorem takeMembers_firstEngineOnly {members : List (Key × Source)}
    {found : Terms.layout.Values} {r : Terms.layout.Values × Option MetEngine} :
    Terms.layout.takeMembers (meetMember room) members found none = .ok r ↔
      Terms.layout.takeMembers (meetMember room) (firstEngineOnly members) found none = .ok r ∧
        ∀ m ∈ laterEngines members, ∃ held, m.2.hold room = .ok held := by
  induction members generalizing found with
  | nil => simp [firstEngineOnly, laterEngines]
  | cons m rest ih =>
    obtain ⟨key, value⟩ := m
    by_cases hnames : NamesEngine (key, value)
    · obtain ⟨name, rfl, hfield⟩ := field?_of_namesEngine hnames
      obtain ⟨read, hread⟩ := namesEngine_iff.mp hnames
      have hlater : laterEngines ((some name, value) :: rest) = rest.filter (NamesEngine ·) := by
        rw [laterEngines, List.filter_cons_of_pos (by simpa using hnames), List.tail_cons]
      have hfirst : firstEngineOnly ((some name, value) :: rest) =
          (some name, value) :: rest.filter (¬ NamesEngine ·) := if_pos hnames
      rw [hlater, hfirst, takeMembers_cons_of_lookup hread, takeMembers_cons_of_lookup hread,
        ← exists_and_right]
      refine exists_congr fun held => ?_
      rw [takeMembers_of_met, and_assoc]
    · have hlater : laterEngines ((key, value) :: rest) = laterEngines rest := by
        rw [laterEngines, List.filter_cons_of_neg (by simpa using hnames)]
        rfl
      have hfirst : firstEngineOnly ((key, value) :: rest) =
          (key, value) :: firstEngineOnly rest := if_neg hnames
      rw [hlater, hfirst, Layout.takeMembers_cons_eq_ok_iff, Layout.takeMembers_cons_eq_ok_iff]
      constructor
      · rintro ⟨name, rfl, ⟨f, v, hf, hfound, hread, hrest⟩ | ⟨state, hf, hmeet, hrest⟩⟩
        · obtain ⟨hrest, hall⟩ := ih.mp hrest
          exact ⟨⟨name, rfl, .inl ⟨f, v, hf, hfound, hread, hrest⟩⟩, hall⟩
        · obtain rfl := eq_none_of_meetMember hnames hmeet
          obtain ⟨hrest, hall⟩ := ih.mp hrest
          exact ⟨⟨name, rfl, .inr ⟨none, hf, hmeet, hrest⟩⟩, hall⟩
      · rintro ⟨⟨name, rfl, ⟨f, v, hf, hfound, hread, hrest⟩ | ⟨state, hf, hmeet, hrest⟩⟩, hall⟩
        · exact ⟨name, rfl, .inl ⟨f, v, hf, hfound, hread, ih.mpr ⟨hrest, hall⟩⟩⟩
        · obtain rfl := eq_none_of_meetMember hnames hmeet
          exact ⟨name, rfl, .inr ⟨none, hf, hmeet, ih.mpr ⟨hrest, hall⟩⟩⟩

/-! ## Reading a genesis -/

/-- What a genesis is made of when its tree is accepted. -/
theorem decode_eq_ok_iff {tree : Source} {g : Genesis} :
    decode room tree = .ok g ↔
      ∃ members closing found met, tree = .object members closing ∧
        Terms.layout.takeMembers (meetMember room) members Terms.layout.noValues none =
          .ok (found, some met) ∧
        closing.wanted = none ∧
        Terms.layout.build Terms.layout.missing found = .ok g.toTerms ∧ met.1 met.2 = .ok g.engine := by
  constructor
  · intro h
    cases tree with
    | object members closing =>
      rw [decode] at h
      obtain ⟨⟨found, met⟩, htake, h⟩ := bind_eq_ok_iff.mp h
      obtain ⟨u, hend, h⟩ := bind_eq_ok_iff.mp h
      obtain ⟨terms, hbuild, h⟩ := bind_eq_ok_iff.mp h
      cases met with
      | none => cases h
      | some met =>
        obtain ⟨engine, hengine, ⟨⟩⟩ := bind_eq_ok_iff.mp h
        exact ⟨members, closing, found, met, rfl, htake, proceed_eq_ok_iff.mp hend, hbuild, hengine⟩
    | number n => cases n <;> cases h
    | _ => cases h
  · rintro ⟨members, closing, found, met, rfl, htake, hend, hbuild, hengine⟩
    simp only [decode, htake, hend, hbuild, hengine, proceed, bind, Except.bind]

/-- The engine is read from the first member that names one. -/
def ReadsFirstEngine (room : Nat) (members : List (Key × Source)) (e : Engine) : Prop :=
  ∃ value held read, members.find? (NamesEngine ·) = some (some e.key, value) ∧
    value.hold room = .ok held ∧ Engine.decoders.lookup e.key = some read ∧ read held = .ok e

theorem readsFirstEngine_of_decode {tree : Source} {g : Genesis} (h : decode room tree = .ok g) :
    ∃ members closing, tree = .object members closing ∧ ReadsFirstEngine room members g.engine := by
  obtain ⟨members, closing, found, met, rfl, htake, -, -, hengine⟩ := decode_eq_ok_iff.mp h
  obtain ⟨name, value, hfind, hread, hheld⟩ := find?_of_takeMembers htake rfl
  obtain rfl := key_of_lookup hread hengine
  exact ⟨members, closing, rfl, value, met.2, met.1, hfind, hheld, hread, hengine⟩

/-- The first member that names an engine says which it is. -/
theorem ReadsFirstEngine.unique {members members' : List (Key × Source)} {e e' : Engine}
    (h : ReadsFirstEngine room members e) (h' : ReadsFirstEngine room members' e')
    (hfind : members.find? (NamesEngine ·) = members'.find? (NamesEngine ·)) : e = e' := by
  obtain ⟨value, held, read, hfirst, hheld, hread, he⟩ := h
  obtain ⟨value', held', read', hfirst', hheld', hread', he'⟩ := h'
  rw [hfind, hfirst'] at hfirst
  injection hfirst with hfirst
  injection hfirst with hkey hvalue
  injection hkey with hkey
  rw [hkey, hread] at hread'
  rw [hvalue, hheld] at hheld'
  cases hread'
  cases hheld'
  rw [he] at he'
  exact Except.ok.inj he'

/-- A genesis is accepted exactly when it is without the members that name
an engine after the first, which have only to fit into memory. -/
theorem decode_firstEngineOnly {members : List (Key × Source)} {closing : Closing} {g : Genesis} :
    decode room (.object members closing) = .ok g ↔
      decode room (.object (firstEngineOnly members) closing) = .ok g ∧
        ∀ m ∈ laterEngines members, ∃ held, m.2.hold room = .ok held := by
  constructor
  · intro h
    obtain ⟨_, _, found, met, ⟨⟩, htake, hrest⟩ := decode_eq_ok_iff.mp h
    obtain ⟨htake, hall⟩ := takeMembers_firstEngineOnly.mp htake
    exact ⟨decode_eq_ok_iff.mpr ⟨_, _, found, met, rfl, htake, hrest⟩, hall⟩
  · rintro ⟨h, hall⟩
    obtain ⟨_, _, found, met, ⟨⟩, htake, hrest⟩ := decode_eq_ok_iff.mp h
    exact decode_eq_ok_iff.mpr
      ⟨_, _, found, met, rfl, takeMembers_firstEngineOnly.mpr ⟨htake, hall⟩, hrest⟩

/-- Where at most one member names an engine, it is the first in every
order. -/
theorem find?_of_perm {members members' : List (Key × Source)} (hperm : members.Perm members')
    (hone : (members.filter (NamesEngine ·)).length ≤ 1) :
    members.find? (NamesEngine ·) = members'.find? (NamesEngine ·) := by
  have hfilter := hperm.filter (fun m => decide (NamesEngine m))
  rw [← List.head?_filter, ← List.head?_filter]
  cases hm : members.filter (NamesEngine ·) with
  | nil =>
    rw [hm] at hfilter
    rw [List.nil_perm.mp hfilter]
  | cons m rest =>
    rw [hm] at hfilter hone
    have hrest : rest = [] := by simpa using hone
    subst hrest
    rw [List.singleton_perm.mp hfilter]

/-- The part of a network's tree that is its genesis. -/
def partOfNetwork? : Source → Option Source :=
  Network.layout.part? .genesis

theorem decode_of_network {tree : Source} {n : Network} {g : Genesis}
    (h : Network.layout.decode tree = .ok n) (hg : n.genesis = some g) :
    ∃ part, partOfNetwork? tree = some part ∧ decode (nestingLimit - 2) part = .ok g := by
  obtain ⟨found, rfl, hparts⟩ := Network.layout_lawful.parts_of_decode h
  have hgenesis : (found .genesis).getD none = some g := hg
  cases hfound : found .genesis with
  | none =>
    rw [hfound] at hgenesis
    cases hgenesis
  | some v =>
    rw [hfound] at hgenesis
    obtain rfl : v = some g := hgenesis
    obtain ⟨part, hpart, hread⟩ := hparts .genesis (some g) hfound
    exact ⟨part, hpart, of_decodeOption hread⟩

/-- The members that name no engine stay where they are. -/
theorem firstEngineOnly_append {before after : List (Key × Source)} {m : Key × Source}
    (hbefore : ∀ m ∈ before, ¬ NamesEngine m) (hm : NamesEngine m) :
    firstEngineOnly (before ++ m :: after) = before ++ m :: after.filter (¬ NamesEngine ·) := by
  induction before with
  | nil => exact if_pos hm
  | cons b before ih =>
    rw [List.cons_append, firstEngineOnly, if_neg (hbefore b List.mem_cons_self),
      ih fun m hm => hbefore m (List.mem_cons_of_mem _ hm), List.cons_append]

theorem laterEngines_append {before after : List (Key × Source)} {m : Key × Source}
    (hbefore : ∀ m ∈ before, ¬ NamesEngine m) (hm : NamesEngine m) :
    laterEngines (before ++ m :: after) = after.filter (NamesEngine ·) := by
  have hnone : before.filter (NamesEngine ·) = [] :=
    List.filter_eq_nil_iff.mpr fun m hm => by simpa using hbefore m hm
  rw [laterEngines, List.filter_append, hnone, List.nil_append,
    List.filter_cons_of_pos (by simpa using hm), List.tail_cons]

theorem not_namesEngine_of_mem_terms {t : Terms} {e : Closing} {m : Key × Source}
    (h : m ∈ Source.ofMembers e (Terms.layout.encodeMembers t Terms.layout.fields)) :
    ¬ NamesEngine m := by
  rw [Source.ofMembers_eq_map] at h
  obtain ⟨⟨key, j⟩, hmem, rfl⟩ := List.mem_map.mp h
  obtain ⟨f, hf⟩ := Layout.name_of_mem_encodeMembers hmem
  obtain rfl : key = Terms.layout.name f := hf
  cases f <;> simp [NamesEngine, Terms.layout, Terms.Field.name]

theorem namesEngine_key (g : Engine) (value : Source) : NamesEngine (some g.key, value) := by
  cases g <;> simp [NamesEngine, Engine.key]

/-- A genesis is accepted with a member for another engine after its own,
whatever the member holds. -/
theorem ofText_beside_engine (g : Genesis) (other : Engine) {j : Json}
    (hj : j.depth < nestingLimit - 1) :
    Genesis.ofText (Json.obj (g.encodeMembers ++ [(other.key, j)])).compact = .ok g := by
  refine decodeDocument_compact ?_
  have hroom : 2 < nestingLimit - 1 := by decide
  have hwritten := codec_lawful hroom .closed Closing.isWhole_closed g
  have hterms : ∀ m ∈ Source.ofMembers .closed (Terms.layout.encodeMembers g.toTerms
      Terms.layout.fields), ¬ NamesEngine m := fun m hm => not_namesEngine_of_mem_terms hm
  have hmembers : Source.ofMembers .closed (g.encodeMembers ++ [(other.key, j)]) =
      Source.ofMembers .closed (Terms.layout.encodeMembers g.toTerms Terms.layout.fields) ++
        (some g.engine.key, .ofJson .closed g.engine.encode) ::
          [(some other.key, .ofJson .closed j)] := by
    rw [encodeMembers, List.append_assoc, Source.ofMembers_append]
    rfl
  rw [Source.ofJson, hmembers, decode_firstEngineOnly,
    firstEngineOnly_append hterms (namesEngine_key _ _),
    laterEngines_append hterms (namesEngine_key _ _)]
  have hkey := namesEngine_key other (.ofJson .closed j)
  constructor
  · have hown : Source.ofMembers .closed g.encodeMembers =
        Source.ofMembers .closed (Terms.layout.encodeMembers g.toTerms Terms.layout.fields) ++
          [(some g.engine.key, .ofJson .closed g.engine.encode)] := Source.ofMembers_append ..
    rw [List.filter_cons_of_neg (by simpa using hkey), List.filter_nil, ← hown]
    exact hwritten
  · intro m hm
    rw [List.filter_cons_of_pos (by simpa using hkey), List.filter_nil] at hm
    obtain rfl := List.mem_singleton.mp hm
    exact ⟨_, Source.hold_ofJson Closing.isWhole_closed j hj⟩

/-! ## Which engine counts -/

/-- How the engine of a genesis comes about that is read from an object of
these members. -/
structure EngineCounts (room : Nat) (members : List (Key × Source)) (closing : Closing)
    (g : Genesis) : Prop where
  /-- It is read from the first member that names one. -/
  first : ReadsFirstEngine room members g.engine
  /-- The genesis is the same with any other members that name an engine
  after the first, or without them. They have only to fit into memory. -/
  later : ∀ members', firstEngineOnly members' = firstEngineOnly members →
    (decode room (.object members' closing) = .ok g ↔
      ∀ m ∈ laterEngines members', ∃ held, m.2.hold room = .ok held)
  /-- Where there are none, the engine is named once and counts in every
  order of the members. -/
  alone : laterEngines members = [] →
    (members.filter (NamesEngine ·)).length = 1 ∧
      ∀ members' closing' g', members.Perm members' →
        decode room (.object members' closing') = .ok g' → g'.engine = g.engine

/-- There is a first member that names an engine, and the later ones are
behind it. -/
theorem ReadsFirstEngine.length_filter {members : List (Key × Source)} {e : Engine}
    (h : ReadsFirstEngine room members e) :
    (members.filter (NamesEngine ·)).length = (laterEngines members).length + 1 := by
  obtain ⟨value, held, read, hfirst, -⟩ := h
  rw [← List.head?_filter] at hfirst
  cases hm : members.filter (NamesEngine ·) with
  | nil =>
    rw [hm] at hfirst
    cases hfirst
  | cons m rest => rw [laterEngines, hm, List.tail_cons, List.length_cons]

theorem engineCounts_of_decode {tree : Source} {g : Genesis} (h : decode room tree = .ok g) :
    ∃ members closing, tree = .object members closing ∧ EngineCounts room members closing g := by
  obtain ⟨members, closing, rfl, hfirst⟩ := readsFirstEngine_of_decode h
  obtain ⟨hwithout, -⟩ := decode_firstEngineOnly.mp h
  refine ⟨members, closing, rfl, hfirst, fun members' hsame => ?_, fun hnone => ?_⟩
  · rw [decode_firstEngineOnly, hsame]
    exact and_iff_right hwithout
  · have hone : (members.filter (NamesEngine ·)).length = 1 := by
      rw [hfirst.length_filter, hnone, List.length_nil]
    refine ⟨hone, fun members' closing' g' hperm h' => ?_⟩
    obtain ⟨_, _, ⟨⟩, hfirst'⟩ := readsFirstEngine_of_decode h'
    exact (hfirst.unique hfirst' (find?_of_perm hperm (Nat.le_of_eq hone))).symm

/-- **Engines**: the engine of an accepted genesis, alone or within a
network, is read from the first member that names one. A second one is
accepted and passed over, whatever it holds. When there is no second, the
engine is named once and counts in every order. -/
theorem first_engine_counts (text : String) :
    (∀ g, Genesis.ofText text = .ok g →
      ∃ members closing, treeOf (decode (nestingLimit - 1)) text = .object members closing ∧
        EngineCounts (nestingLimit - 1) members closing g) ∧
    ∀ n g, Network.ofText text = .ok n → n.genesis = some g →
      ∃ members closing,
        partOfNetwork? (treeOf Network.layout.decode text) = some (.object members closing) ∧
        EngineCounts (nestingLimit - 2) members closing g := by
  constructor
  · intro g h
    exact engineCounts_of_decode (decode_treeOf h)
  · intro n g h hg
    obtain ⟨part, hpart, hread⟩ := decode_of_network (decode_treeOf h) hg
    obtain ⟨members, closing, rfl, hcounts⟩ := engineCounts_of_decode hread
    exact ⟨members, closing, hpart, hcounts⟩

theorem ethash_counts_before_clique :
    ∃ text members closing, Genesis.ofText text = .ok (Genesis.new 1337 1337 (.ethash {})) ∧
      treeOf (decode (nestingLimit - 1)) text = .object members closing ∧
      EngineCounts (nestingLimit - 1) members closing (Genesis.new 1337 1337 (.ethash {})) := by
  have h := ofText_beside_engine (Genesis.new 1337 1337 (.ethash {})) (.clique { signers := [] })
    (j := .null) (by decide)
  obtain ⟨members, closing, htree, hcounts⟩ := (first_engine_counts _).1 _ h
  exact ⟨_, members, closing, h, htree, hcounts⟩

/-- The text of a network with two engines. -/
def twoEngines (first second : String × Json) : String :=
  (Json.obj [("networkId", .nat 1337), ("chainId", .nat 1337), first, second]).compact

/-- The member of a proof of work. -/
def ethashMember : String × Json := ("ethash", .obj [])

/-- The member of a proof of authority with one signer. -/
def cliqueMember : String × Json :=
  ("clique", .obj [("signers", .arr [.str (Address.ofLastByte 1).text])])

/-- The same two members make a proof of work in one order and a proof of
authority in the other. -/
theorem consensus_turns_on_the_order_of_engines :
    Genesis.ofText (twoEngines ethashMember cliqueMember) =
      .ok (Genesis.new 1337 1337 (.ethash {})) ∧
    Genesis.ofText (twoEngines cliqueMember ethashMember) =
      .ok (Genesis.new 1337 1337 (.clique { signers := [.ofLastByte 1] })) :=
  ⟨decodeDocument_compact rfl, decodeDocument_compact rfl⟩

end Provision.Genesis
