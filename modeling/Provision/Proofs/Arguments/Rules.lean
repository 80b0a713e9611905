/-
Provision.Proofs.Arguments.Rules — command lines are read back rule by rule.

A command line is flat: a rule that does not apply leaves no trace, and a
value may look like a flag. A table reads back when two command lines of
it are equal only where each rule contributes the same to both
(`ReadsBack.render_eq_iff`). So it does when every rule begins with a flag
that no other rule has, because then the next token tells which rule it
comes from (`HaveOwnFlags.readsBack`), and when two rules share a flag of
which exactly one applies (`ReadsBack.alternatives`).
-/
import Provision.Proofs.Arguments.Values

namespace Provision

/-- The flag that a contribution begins with, unless it is a bare token. -/
def Emission.flag? : Emission → Option String
  | .switch flag | .fixed flag _ | .value flag _ => some flag
  | .token _ => none

namespace Emission

variable {s t : Situation}

theorem tokens_eq_cons {e : Emission} {f : String} (h : e.flag? = some f) :
    ∃ rest, e.tokens s = f :: rest := by
  cases e with
  | switch flag => exact ⟨[], by simpa [flag?, tokens] using h⟩
  | fixed flag text => exact ⟨[text], by simpa [flag?, tokens] using h⟩
  | value flag text => exact ⟨[text s], by simpa [flag?, tokens] using h⟩
  | token text => cases h

theorem tokens_ne_nil (e : Emission) : e.tokens s ≠ [] := by
  cases e <;> exact List.cons_ne_nil _ _

/-- The number of tokens is the same in every situation. -/
theorem length_tokens (e : Emission) : (e.tokens s).length = (e.tokens t).length := by
  cases e <;> rfl

end Emission

namespace Rule

variable {s t : Situation} {table : List Rule}

/-! ## Tables -/

/-- The flags of the rules of a table. -/
def flags (table : List Rule) : List (Option String) := table.map fun r => r.emission.flag?

/-- Every rule begins with a flag, which no other rule has. -/
def HaveOwnFlags (table : List Rule) : Prop := none ∉ flags table ∧ (flags table).Nodup

instance (table : List Rule) : Decidable (HaveOwnFlags table) :=
  inferInstanceAs (Decidable (_ ∧ _))

theorem HaveOwnFlags.tail {r : Rule} (h : HaveOwnFlags (r :: table)) : HaveOwnFlags table :=
  ⟨List.not_mem_of_not_mem_cons h.1, h.2.of_cons⟩

theorem HaveOwnFlags.exists_flag {r : Rule} (h : HaveOwnFlags (r :: table)) :
    ∃ f, r.emission.flag? = some f ∧ some f ∉ flags table := by
  cases hf : r.emission.flag? with
  | none => exact absurd (by simp [flags, hf]) h.1
  | some f =>
    refine ⟨f, rfl, ?_⟩
    rw [← hf]
    exact (List.nodup_cons.mp h.2).1

theorem render_cons (r : Rule) (table : List Rule) (s : Situation) :
    render (r :: table) s = tokens s r ++ render table s :=
  List.flatMap_cons

/-- What each rule contributes makes up the command line. -/
theorem render_congr (h : ∀ r ∈ table, tokens s r = tokens t r) :
    render table s = render table t :=
  List.flatMap_congr h

/-! ## Reading back -/

/-- Two command lines of the table are equal only where each rule
contributes the same to both. -/
def ReadsBack (table : List Rule) (s t : Situation) : Prop :=
  render table s = render table t → ∀ r ∈ table, tokens s r = tokens t r

theorem ReadsBack.render_eq_iff (h : ReadsBack table s t) :
    render table s = render table t ↔ ∀ r ∈ table, tokens s r = tokens t r :=
  ⟨h, render_congr⟩

/-- A rule is read off the front when it is known whether it applies. -/
theorem ReadsBack.cons {r : Rule}
    (happlies : render (r :: table) s = render (r :: table) t → r.applies s = r.applies t)
    (h : ReadsBack table s t) : ReadsBack (r :: table) s t := by
  intro heq
  have hlen : (tokens s r).length = (tokens t r).length := by
    unfold tokens
    rw [happlies heq]
    split
    · exact r.emission.length_tokens
    · rfl
  rw [render_cons, render_cons] at heq
  obtain ⟨hfront, hback⟩ := List.append_inj heq hlen
  exact List.forall_mem_cons.mpr ⟨hfront, h hback⟩

/-- A rule that always applies is read off the front. -/
theorem ReadsBack.cons_always (e : Emission) (h : ReadsBack table s t) :
    ReadsBack (always e :: table) s t :=
  h.cons fun _ => rfl

/-- Of two rules that contribute equally many tokens exactly one applies:
the rules behind them are read first, and tell which. -/
theorem ReadsBack.alternatives {r₁ r₂ : Rule} (hone : ∀ s, r₁.applies s = !r₂.applies s)
    (hlen : ∀ s, (r₁.emission.tokens s).length = (r₂.emission.tokens s).length)
    (htold : (∀ r ∈ table, tokens s r = tokens t r) → r₂.applies s = r₂.applies t)
    (h : ReadsBack table s t) : ReadsBack (r₁ :: r₂ :: table) s t := by
  intro heq
  -- Whichever applies, what it contributes is as long as what the first would contribute.
  have hfront (s : Situation) :
      (tokens s r₁ ++ tokens s r₂).length = (r₁.emission.tokens s).length := by
    rw [tokens, tokens, hone, hlen]
    cases r₂.applies s <;> simp [hlen]
  have hsplit (s : Situation) :
      render (r₁ :: r₂ :: table) s = (tokens s r₁ ++ tokens s r₂) ++ render table s := by
    rw [render_cons, render_cons, List.append_assoc]
  have hback : render table s = render table t := by
    rw [hsplit, hsplit] at heq
    refine (List.append_inj heq ?_).2
    rw [hfront, hfront]
    exact r₁.emission.length_tokens
  have hsame := htold (h hback)
  refine ReadsBack.cons (fun _ => ?_) (ReadsBack.cons (fun _ => hsame) h) heq
  rw [hone, hone, hsame]

/-! ## Flags -/

/-- A command line begins with the flag of one of its rules. -/
theorem head_render_mem (h : HaveOwnFlags table) {f : String} {rest : List String}
    (hrender : render table s = f :: rest) : some f ∈ flags table := by
  induction table with
  | nil => exact nomatch hrender
  | cons r table ih =>
    obtain ⟨f', hf', -⟩ := h.exists_flag
    rw [render_cons, tokens] at hrender
    by_cases happlies : r.applies s = true
    · obtain ⟨tail, htail⟩ := Emission.tokens_eq_cons (s := s) hf'
      rw [if_pos happlies, htail, List.cons_append, List.cons.injEq] at hrender
      rw [← hrender.1]
      exact List.mem_map.mpr ⟨r, List.mem_cons_self, hf'⟩
    · rw [if_neg happlies, List.nil_append] at hrender
      exact List.mem_cons_of_mem _ (ih h.tail hrender)

/-- The first rule leaves its trace on a command line when it applies. -/
theorem applies_of_render_cons_eq {r : Rule} (h : HaveOwnFlags (r :: table))
    (heq : render (r :: table) s = render (r :: table) t) (hs : r.applies s = true) :
    r.applies t = true := by
  by_contra ht
  obtain ⟨f, hf, hnew⟩ := h.exists_flag
  obtain ⟨tail, htail⟩ := Emission.tokens_eq_cons (s := s) hf
  rw [render_cons, render_cons, tokens, tokens, if_pos hs, if_neg ht, htail, List.cons_append,
    List.nil_append] at heq
  exact hnew (head_render_mem h.tail heq.symm)

/-- **Reading back**: a table reads back where every rule has a flag of its own. -/
theorem HaveOwnFlags.readsBack (h : HaveOwnFlags table) : ReadsBack table s t := by
  induction table with
  | nil => exact fun _ => nofun
  | cons r table ih =>
    refine ReadsBack.cons (fun heq => Bool.eq_iff_iff.mpr ⟨?_, ?_⟩) (ih h.tail)
    · exact applies_of_render_cons_eq h heq
    · exact applies_of_render_cons_eq h heq.symm

/-! ## Rules -/

section

variable {p : Situation → Bool} {flag text : String} {v : Situation → String}

theorem tokens_always (e : Emission) (s : Situation) : tokens s (always e) = e.tokens s := rfl

theorem tokens_given (e : Emission) (s : Situation) :
    tokens s (given p e) = if p s = true then e.tokens s else [] := rfl

theorem tokens_always_value_eq_iff :
    tokens s (always (.value flag v)) = tokens t (always (.value flag v)) ↔ v s = v t := by
  simp [tokens_always, Emission.tokens]

/-- A rule with a condition tells whether it holds, and what it adds then. -/
theorem tokens_given_eq_iff {e : Emission} :
    tokens s (given p e) = tokens t (given p e) ↔
      p s = p t ∧ (p s = true → e.tokens s = e.tokens t) := by
  have hs := e.tokens_ne_nil (s := s)
  have ht := e.tokens_ne_nil (s := t)
  rw [tokens_given, tokens_given]
  cases p s <;> cases p t <;> simp [hs, ht.symm]

theorem tokens_given_switch_eq_iff :
    tokens s (given p (.switch flag)) = tokens t (given p (.switch flag)) ↔ p s = p t := by
  simp [tokens_given_eq_iff, Emission.tokens]

theorem tokens_given_fixed_eq_iff :
    tokens s (given p (.fixed flag text)) = tokens t (given p (.fixed flag text)) ↔ p s = p t := by
  simp [tokens_given_eq_iff, Emission.tokens]

theorem tokens_given_token_eq_iff :
    tokens s (given p (.token v)) = tokens t (given p (.token v)) ↔
      p s = p t ∧ (p s = true → v s = v t) := by
  simp [tokens_given_eq_iff, Emission.tokens]

theorem tokens_given_value_eq_iff :
    tokens s (given p (.value flag v)) = tokens t (given p (.value flag v)) ↔
      p s = p t ∧ (p s = true → v s = v t) := by
  simp [tokens_given_eq_iff, Emission.tokens]

end

end Rule

end Provision
