import CellHighlight.Modes
import Mathlib.Data.List.Induction

/-!
# Registrations

A registry is made by a sequence of changes.  The table of modes and the table of MIME types
change independently, and in each of them the latest change about a name decides.
-/

namespace CellHighlight

inductive Change
  | define (name : String) (grammar : Grammar)
  | defineMime (mime mode : String)
  | addInfo (info : ModeInfo)

namespace Change

def grammar? (wanted : String) : Change → Option Grammar
  | .define name grammar => if name = wanted then some grammar else none
  | _ => none

def target? (wanted : String) : Change → Option String
  | .defineMime mime mode => if mime = wanted then some mode else none
  | _ => none

end Change

variable {α β : Type} {read : Change → Option α} {changes earlier : List Change} {change : Change}
  {value : α}

/-- The last change from which something is read, and the changes before it. -/
def Latest (read : Change → Option α) (changes earlier : List Change) (value : α) : Prop :=
  ∃ change later, changes = earlier ++ change :: later ∧ read change = some value ∧
    ∀ other ∈ later, read other = none

theorem not_latest_nil : ¬ Latest read [] earlier value := by
  rintro ⟨change, later, h, -⟩
  simp at h

theorem latest_append_singleton :
    Latest read (changes ++ [change]) earlier value ↔
      read change = some value ∧ earlier = changes ∨
        read change = none ∧ Latest read changes earlier value := by
  constructor
  · rintro ⟨last, later, h, hlast, hlater⟩
    -- The latest change is the one appended, or that one is among the later ones.
    rcases List.eq_nil_or_concat later with rfl | ⟨init, other, rfl⟩
    · obtain ⟨rfl, hchange⟩ := List.append_inj' h rfl
      obtain rfl := List.singleton_inj.mp hchange
      exact .inl ⟨hlast, rfl⟩
    · rw [List.concat_eq_append] at h hlater
      rw [← List.cons_append, ← List.append_assoc] at h
      obtain ⟨rfl, hchange⟩ := List.append_inj' h rfl
      obtain rfl := List.singleton_inj.mp hchange
      refine .inr ⟨hlater _ (by simp), last, init, rfl, hlast, fun other hother => ?_⟩
      exact hlater other (List.mem_append_left _ hother)
  · rintro (⟨hread, rfl⟩ | ⟨hread, last, later, rfl, hlast, hlater⟩)
    · exact ⟨change, [], rfl, hread, nofun⟩
    · refine ⟨last, later ++ [change], by simp, hlast, ?_⟩
      simpa [or_imp, forall_and, hread] using hlater

namespace Modes

def apply (modes : Modes) : Change → Modes
  | .define name grammar => modes.define name grammar
  | .defineMime mime mode => modes.defineMime mime mode
  | .addInfo info => modes.addInfo info

def ofChanges (changes : List Change) : Modes := changes.foldl apply {}

@[simp] theorem ofChanges_append_singleton (changes : List Change) (change : Change) :
    ofChanges (changes ++ [change]) = (ofChanges changes).apply change := by
  simp [ofChanges]

/-! ## The latest change decides -/

/-- What is found in the registry is replaced by each change from which something is read, by
what the registry makes of it, and by no other change. -/
structure Follows (found : Modes → Option β) (read : Change → Option α) (make : Modes → α → β) :
    Prop where
  empty : found {} = none
  step : ∀ modes change, found (modes.apply change) =
    ((read change).map (make modes)).or (found modes)

namespace Follows

variable {found : Modes → Option β} {make : Modes → α → β}

theorem eq_some_iff (h : Follows found read make) (changes : List Change) (result : β) :
    found (ofChanges changes) = some result ↔
      ∃ earlier value, Latest read changes earlier value ∧
        result = make (ofChanges earlier) value := by
  induction changes using List.reverseRecOn with
  | nil => simp [ofChanges, h.empty, not_latest_nil]
  | append_singleton changes change ih =>
      rw [ofChanges_append_singleton, h.step]
      simp only [latest_append_singleton]
      cases hread : read change with
      | none => simpa using ih
      | some value => simp [eq_comm]

theorem eq_none_iff (h : Follows found read make) (changes : List Change) :
    found (ofChanges changes) = none ↔ ∀ change ∈ changes, read change = none := by
  induction changes using List.reverseRecOn with
  | nil => simp [ofChanges, h.empty]
  | append_singleton changes change ih =>
      rw [ofChanges_append_singleton, h.step]
      simp [or_imp, forall_and, ih, and_comm]

end Follows

theorem follows_registrations (mode : String) :
    Follows (fun modes => modes.registrations.find? (·.name == mode)) (Change.grammar? mode)
      (fun modes grammar => ⟨mode, modes.registrations.length, grammar⟩) := by
  refine ⟨rfl, fun modes change => ?_⟩
  cases change with
  | define name grammar =>
      by_cases hname : name = mode
      · simp [apply, define, Change.grammar?, hname]
      · simp [apply, define, Change.grammar?, hname]
  | defineMime mime mode => rfl
  | addInfo info => rfl

theorem follows_mimes (mime : String) :
    Follows (fun modes => modes.mimes.lookup mime) (Change.target? mime) (fun _ mode => mode) := by
  refine ⟨rfl, fun modes change => ?_⟩
  cases change with
  | define name grammar => rfl
  | defineMime name mode =>
      by_cases hname : name = mime
      · simp [apply, defineMime, Change.target?, hname]
      · have hne : (mime == name) = false := beq_false_of_ne (Ne.symm hname)
        simp [apply, defineMime, Change.target?, hname, List.lookup_cons, hne]
  | addInfo info => rfl

/-! ## Lookups -/

def Denotes (changes : List Change) (name mode : String) : Prop :=
  (∃ earlier, Latest (Change.target? name) changes earlier mode) ∨
    mode = name ∧ ∀ change ∈ changes, change.target? name = none

theorem denotes_iff (changes : List Change) (name mode : String) :
    Denotes changes name mode ↔ mode = (ofChanges changes).resolve name := by
  have hsome : (ofChanges changes).mimes.lookup name = some mode ↔
      ∃ earlier, Latest (Change.target? name) changes earlier mode := by
    simpa using (follows_mimes name).eq_some_iff changes mode
  have hnone := (follows_mimes name).eq_none_iff changes
  rw [Denotes, ← hsome, ← hnone, resolve]
  cases (ofChanges changes).mimes.lookup name with
  | none => simp
  | some target => simp [eq_comm]

/-- A name stands for one mode.  A lookup finds what the latest definition of that mode made, and
fails exactly if the mode was never defined. -/
theorem find_ofChanges (changes : List Change) (name : String) :
    ∃ mode, (∀ other, Denotes changes name other ↔ other = mode) ∧
      (∀ error, (ofChanges changes).find name = .error error ↔
        error = .unknownMode name ∧ ∀ change ∈ changes, change.grammar? mode = none) ∧
      ∀ registration, (ofChanges changes).find name = .ok registration ↔
        ∃ earlier grammar, Latest (Change.grammar? mode) changes earlier grammar ∧
          registration = ⟨mode, (ofChanges earlier).registrations.length, grammar⟩ := by
  let mode := (ofChanges changes).resolve name
  have hsome := (follows_registrations mode).eq_some_iff changes
  have hnone := (follows_registrations mode).eq_none_iff changes
  refine ⟨mode, fun other => denotes_iff changes name other, fun error => ?_,
    fun registration => ?_⟩
  · rw [← hnone, find]
    cases (ofChanges changes).registrations.find? (·.name == mode) with
    | none => simp [eq_comm]
    | some registration => simp
  · rw [← hsome, find]
    cases (ofChanges changes).registrations.find? (·.name == mode) with
    | none => simp
    | some found => simp

/-- A name that is registered is reported as unknown when it is a MIME type for a mode that is
not there, even if there is a mode of that name. -/
theorem find_ofChanges_dangling :
    let changes : List Change := [.define "r" .r, .defineMime "r" "s", .defineMime "text/x-s" "s"]
    (ofChanges changes).find "text/x-s" = .error (.unknownMode "text/x-s") ∧
      (∃ change ∈ changes, change.target? "text/x-s" ≠ none) ∧
      (ofChanges changes).find "r" = .error (.unknownMode "r") ∧
      ∃ change ∈ changes, change.grammar? "r" ≠ none := by
  refine ⟨rfl, ⟨.defineMime "text/x-s" "s", by simp, nofun⟩, rfl, ⟨.define "r" .r, by simp, nofun⟩⟩

end Modes

end CellHighlight
