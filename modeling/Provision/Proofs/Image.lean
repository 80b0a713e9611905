/-
Provision.Proofs.Image — what decides the image that a node runs.

A node and the images that are set are worked on in steps (`Setup.Step`):
the node may be replaced, run another client, be unpinned or be pinned, and
the images may go back to the default ones. Whatever the steps are, the last
one that says which image is asked for decides, and if it asks for none, the
first pinning after it (`last_pin_decides_image`).
-/
import Mathlib.Data.List.Induction
import Provision.Image
import Provision.Proofs.Text.Blank

namespace Provision

/-! ## The images that are set -/

namespace ImageSet

/-- What the image of a client is in an environment. -/
inductive Offers (lookup : String → Option String) (c : Client) : String → Prop
  /-- The value of its variable without the blanks at the ends. -/
  | value {v image : String} : lookup c.imageVariable = some v → ¬ Text.Blank v.toList →
      Text.Trimmed v.toList image.toList → Offers lookup c image
  /-- The default one, when the variable is not set or is blank. -/
  | default : (∀ v ∈ lookup c.imageVariable, Text.Blank v.toList) →
      Offers lookup c c.defaultImage

theorem image_default (c : Client) : ({} : ImageSet).image c = c.defaultImage := by
  cases c <;> rfl

theorem image_ofLookup (lookup : String → Option String) (c : Client) :
    (ofLookup lookup).image c = choose (lookup c.imageVariable) c.defaultImage := by
  cases c <;> rfl

theorem offers_ofLookup (lookup : String → Option String) (c : Client) :
    Offers lookup c ((ofLookup lookup).image c) := by
  rw [image_ofLookup]
  cases hv : lookup c.imageVariable with
  | none => exact .default (by simp [hv])
  | some v =>
    by_cases hblank : Text.Blank v.toList
    · have hdefault : choose (some v) c.defaultImage = c.defaultImage := by
        simp [choose, Option.filter, Text.trim_eq_empty_iff.mpr hblank]
      rw [hdefault]
      exact .default (by simpa [hv] using hblank)
    · have htrim : choose (some v) c.defaultImage = Text.trim v := by
        simp [choose, Option.filter, mt Text.trim_eq_empty_iff.mp hblank]
      rw [htrim]
      refine .value hv hblank ?_
      rw [Text.trim, String.toList_ofList]
      exact Text.trimmed_trim v.toList

theorem not_blank_defaultImage (c : Client) : ¬ Text.Blank c.defaultImage.toList := by
  intro hblank
  have hslash : '/' ∈ c.defaultImage.toList := by
    cases c <;> decide
  exact absurd (hblank '/' hslash) (by decide)

/-- No client is offered a blank image. -/
theorem Offers.not_blank {lookup : String → Option String} {c : Client} {image : String}
    (h : Offers lookup c image) : ¬ Text.Blank image.toList := by
  cases h with
  | value _ hblank htrim => rwa [htrim.blank_iff, htrim.eq_nil_iff]
  | default _ => exact not_blank_defaultImage c

/-! ## Pinning -/

theorem resolve_of_image {node : Node} {image : String} (h : node.image = some image)
    (images : ImageSet) : images.resolve node = node := by
  cases node
  cases h
  rfl

theorem runningImage_resolve (images : ImageSet) (node : Node) :
    (images.resolve node).runningImage = node.image.getD (images.image node.client) := rfl

/-- Pinning to the default images changes nothing for a node that runs its
default image anyway. -/
theorem runningImage_resolve_default (node : Node) :
    (({} : ImageSet).resolve node).runningImage = node.runningImage := by
  rw [runningImage_resolve, image_default]
  rfl

end ImageSet

/-! ## Steps -/

/-- The images that are set, and the node they are for. -/
structure Setup where
  images : ImageSet
  node : Node := {}

namespace Setup

/-- What may be done to a setup. -/
inductive Step where
  /-- Another node takes the place of the one there is. -/
  | replace (node : Node)
  /-- The node runs another client and is the same in all else. -/
  | change (client : Client)
  /-- The node asks for no image any more. -/
  | unpin
  /-- The images are the default ones again. -/
  | reset
  /-- The node is pinned to the image of its client. -/
  | resolve
deriving DecidableEq

/-- The setup in an environment, before any step. -/
def start (lookup : String → Option String) : Setup where
  images := ImageSet.ofLookup lookup

/-- The setup after a step. -/
def step (s : Setup) : Step → Setup
  | .replace node => { s with node := node }
  | .change client => { s with node := { s.node with client := client } }
  | .unpin => { s with node := { s.node with image := none } }
  | .reset => { s with images := {} }
  | .resolve => { s with node := s.images.resolve s.node }

/-- The setup after all steps. -/
def run (s : Setup) (steps : List Step) : Setup :=
  steps.foldl step s

theorem run_append (s : Setup) (before after : List Step) :
    s.run (before ++ after) = (s.run before).run after :=
  List.foldl_append

theorem run_concat (s : Setup) (steps : List Step) (e : Step) :
    s.run (steps ++ [e]) = (s.run steps).step e :=
  run_append s steps [e]

/-- The images are those of the beginning until they are reset. -/
theorem images_run (s : Setup) (steps : List Step) :
    (s.run steps).images = if .reset ∈ steps then {} else s.images := by
  induction steps using List.reverseRecOn with
  | nil => rfl
  | append_singleton steps e ih =>
    rw [run_concat]
    cases e with
    | reset => simp [step]
    | replace | change | unpin | resolve => simp [step, ih]

/-! ## Steps that say which image is asked for -/

/-- The step says which image is asked for, or that none is. -/
def Step.Pins : Step → Prop
  | .replace _ | .unpin => True
  | .change _ | .reset | .resolve => False

/-- The steps end with one that says which image is asked for, and this is
what it says. Before any step no image is asked for. -/
inductive LastPin : List Step → Option String → Prop
  | empty : LastPin [] none
  | replace (before : List Step) (node : Node) : LastPin (before ++ [.replace node]) node.image
  | unpin (before : List Step) : LastPin (before ++ [.unpin]) none

theorem exists_lastPin (steps : List Step) :
    ∃ upTo since asked, steps = upTo ++ since ∧ LastPin upTo asked ∧ ∀ e ∈ since, ¬ e.Pins := by
  induction steps using List.reverseRecOn with
  | nil => exact ⟨[], [], none, rfl, .empty, List.forall_mem_nil _⟩
  | append_singleton steps e ih =>
    obtain ⟨upTo, since, asked, rfl, hlast, hsince⟩ := ih
    have hkeeps (he : ¬ e.Pins) : ∀ e' ∈ since ++ [e], ¬ e'.Pins := by
      intro e' he'
      obtain he' | he' := List.mem_append.mp he'
      · exact hsince e' he'
      · exact List.mem_singleton.mp he' ▸ he
    cases e with
    | replace node =>
      exact ⟨_, [], _, (List.append_nil _).symm, .replace _ node, List.forall_mem_nil _⟩
    | unpin => exact ⟨_, [], _, (List.append_nil _).symm, .unpin _, List.forall_mem_nil _⟩
    | change | reset | resolve =>
      exact ⟨upTo, _, asked, List.append_assoc upTo since _, hlast, hkeeps fun h => h⟩

theorem LastPin.image_run {lookup : String → Option String} {steps : List Step}
    {asked : Option String} (h : LastPin steps asked) :
    ((start lookup).run steps).node.image = asked := by
  cases h with
  | empty => rfl
  | replace before node => rw [run_concat]; rfl
  | unpin before => rw [run_concat]; rfl

/-! ## What the other steps keep -/

theorem image_step {s : Setup} {e : Step} (hpins : ¬ e.Pins) (hresolve : e ≠ .resolve) :
    (s.step e).node.image = s.node.image := by
  cases e with
  | replace | unpin => exact absurd trivial hpins
  | change | reset => rfl
  | resolve => exact absurd rfl hresolve

theorem image_step_of_image {s : Setup} {e : Step} {image : String} (hpins : ¬ e.Pins)
    (himage : s.node.image = some image) : (s.step e).node.image = some image := by
  by_cases hresolve : e = .resolve
  · subst hresolve
    rw [step, ImageSet.resolve_of_image himage]
    exact himage
  · rw [image_step hpins hresolve, himage]

/-- Without a pinning the image that is asked for stays as it is. -/
theorem image_run {s : Setup} {steps : List Step} (hpins : ∀ e ∈ steps, ¬ e.Pins)
    (hresolve : .resolve ∉ steps) : (s.run steps).node.image = s.node.image := by
  induction steps generalizing s with
  | nil => rfl
  | cons e steps ih =>
    rw [List.forall_mem_cons] at hpins
    rw [List.mem_cons, not_or] at hresolve
    calc ((s.step e).run steps).node.image
        = (s.step e).node.image := ih hpins.2 hresolve.2
      _ = s.node.image := image_step hpins.1 (Ne.symm hresolve.1)

/-- A pinned node stays pinned, whatever is done to its client and to the
images that are set. -/
theorem image_run_of_image {s : Setup} {steps : List Step} {image : String}
    (hpins : ∀ e ∈ steps, ¬ e.Pins) (himage : s.node.image = some image) :
    (s.run steps).node.image = some image := by
  induction steps generalizing s with
  | nil => exact himage
  | cons e steps ih =>
    rw [List.forall_mem_cons] at hpins
    exact ih hpins.2 (image_step_of_image hpins.1 himage)

/-! ## The image that is run -/

/-- The image that is run when the steps `upTo` end by asking for an image
or for none, and the steps `since` do neither. -/
inductive Decides (lookup : String → Option String) (upTo since : List Step) :
    Option String → String → Prop
  /-- An image that is asked for is run. -/
  | asked (image : String) : Decides lookup upTo since (some image) image
  /-- The first pinning decides for the images and the client of its time. -/
  | pinned {before after : List Step} : since = before ++ .resolve :: after →
      .resolve ∉ before →
      Decides lookup upTo since none
        (((start lookup).run (upTo ++ before)).images.image
          ((start lookup).run (upTo ++ before)).node.client)
  /-- Without a pinning the client runs its default image. -/
  | unpinned : .resolve ∉ since →
      Decides lookup upTo since none
        ((start lookup).run (upTo ++ since)).node.client.defaultImage

theorem decides_run {lookup : String → Option String} {upTo since : List Step}
    {asked : Option String} (hlast : LastPin upTo asked) (hsince : ∀ e ∈ since, ¬ e.Pins) :
    Decides lookup upTo since asked ((start lookup).run (upTo ++ since)).node.runningImage := by
  have hasked : ((start lookup).run upTo).node.image = asked := hlast.image_run
  cases asked with
  | some image =>
    have hrun : ((start lookup).run (upTo ++ since)).node.runningImage = image := by
      rw [Node.runningImage, run_append, image_run_of_image hsince hasked]
      rfl
    rw [hrun]
    exact .asked image
  | none =>
    by_cases hresolve : .resolve ∈ since
    · obtain ⟨before, after, rfl, hbefore⟩ := List.eq_append_cons_of_mem hresolve
      obtain ⟨hkeep, hafter⟩ := List.forall_mem_append.mp hsince
      have hfree : ((start lookup).run (upTo ++ before)).node.image = none := by
        rw [run_append, image_run hkeep hbefore, hasked]
      -- The pinning finds no image and puts its own there, which then stays.
      have hpin : (((start lookup).run (upTo ++ before)).step .resolve).node.image =
          some (((start lookup).run (upTo ++ before)).images.image
            ((start lookup).run (upTo ++ before)).node.client) := by
        rw [step, ImageSet.resolve, hfree]
        rfl
      have hstay := image_run_of_image (fun e he => hafter e (List.mem_cons_of_mem _ he)) hpin
      have hrun : ((start lookup).run (upTo ++ (before ++ .resolve :: after))).node.runningImage =
          ((start lookup).run (upTo ++ before)).images.image
            ((start lookup).run (upTo ++ before)).node.client := by
        rw [Node.runningImage, ← List.append_assoc, run_append]
        exact congrArg (Option.getD · _) hstay
      rw [hrun]
      exact .pinned rfl hbefore
    · have hrun : ((start lookup).run (upTo ++ since)).node.runningImage =
          ((start lookup).run (upTo ++ since)).node.client.defaultImage := by
        rw [Node.runningImage, run_append, image_run hsince hresolve, hasked]
        rfl
      rw [hrun]
      exact .unpinned hresolve

/-- **Images**: in any environment and after any steps, the images that are
set are those the environment offers, or the default ones after a reset, and
none of them is blank. Pinning changes nothing but the image, keeps one that
is asked for, and need not be done twice. What is run is decided by the last
step that says which image is asked for, and when it asks for none by the
first pinning after it. With the default images pinning does not change what
is run. -/
theorem last_pin_decides_image (lookup : String → Option String) (steps : List Step) :
    (∀ c, (.reset ∈ steps ∧ ((start lookup).run steps).images.image c = c.defaultImage ∨
          .reset ∉ steps ∧
            ImageSet.Offers lookup c (((start lookup).run steps).images.image c)) ∧
        ¬ Text.Blank (((start lookup).run steps).images.image c).toList) ∧
      (∀ (images : ImageSet) (node : Node),
        { images.resolve node with image := node.image } = node ∧
          (∀ image, node.image = some image → images.resolve node = node) ∧
          images.resolve (images.resolve node) = images.resolve node) ∧
      (∃ upTo since asked, steps = upTo ++ since ∧ LastPin upTo asked ∧
        (∀ e ∈ since, ¬ e.Pins) ∧
        Decides lookup upTo since asked ((start lookup).run steps).node.runningImage) ∧
      (((start lookup).run steps).images = {} →
        ((start lookup).run (steps ++ [.resolve])).node.runningImage =
          ((start lookup).run steps).node.runningImage) := by
  refine ⟨fun c => ?_, fun images node => ?_, ?_, fun hdefault => ?_⟩
  · rw [images_run]
    by_cases hreset : .reset ∈ steps
    · rw [if_pos hreset, ImageSet.image_default]
      exact ⟨.inl ⟨hreset, rfl⟩, ImageSet.not_blank_defaultImage c⟩
    · rw [if_neg hreset]
      have hoffers := ImageSet.offers_ofLookup lookup c
      exact ⟨.inr ⟨hreset, hoffers⟩, hoffers.not_blank⟩
  · exact ⟨rfl, fun image himage => ImageSet.resolve_of_image himage images,
      ImageSet.resolve_resolve images images node⟩
  · obtain ⟨upTo, since, asked, rfl, hlast, hsince⟩ := exists_lastPin steps
    exact ⟨upTo, since, asked, rfl, hlast, hsince, decides_run hlast hsince⟩
  · rw [run_concat, step, hdefault]
    exact ImageSet.runningImage_resolve_default _

example :
    ((start fun v => if v = "GETH_IMAGE" then some " geth:1 " else none).run
      [.change .geth, .resolve, .reset, .change .besu]).node.runningImage = "geth:1" := by
  decide

end Setup

end Provision
