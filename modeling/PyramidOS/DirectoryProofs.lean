import PyramidOS.RunProofs
import Mathlib.Data.List.Nodup

/-! # Append-only directories

    A directory holds items in the order they came, at most `cap` of them and each
    under a name of its own.  A request is granted when its item is sound, there is
    room and the name is new; then the item goes to the end.  Nothing leaves.

    * `Step` — when a request is granted;
    * `granted_run` — the items are those granted, in order;
    * `Directory.find_eq_some_iff`, `Directory.find_eq_none_iff` — a name finds its item,
      or nothing. -/

namespace NamedDirectory

open LabelledRun

variable {α κ : Type} {cap : Nat} {a : α} {k : κ}

/-- Items with their names. -/
structure Directory (α κ : Type) (cap : Nat) where
  items : List (α × κ)
  names : (items.map Prod.snd).Nodup
  room : items.length ≤ cap

/-- The directory without items. -/
def Directory.empty : Directory α κ cap := ⟨[], List.nodup_nil, Nat.zero_le _⟩

/-- There is room for one more item, and its name is new. -/
structure Directory.Admits (d : Directory α κ cap) (k : κ) : Prop where
  room : d.items.length < cap
  fresh : k ∉ d.items.map Prod.snd

/-- The directory with one more item. -/
def Directory.add (d : Directory α κ cap) (a : α) (k : κ) (h : d.Admits k) :
    Directory α κ cap where
  items := d.items ++ [(a, k)]
  names := by
    rw [List.map_append, List.nodup_append']
    refine ⟨d.names, List.nodup_singleton k, ?_⟩
    intro n hn hk
    obtain rfl : n = k := List.mem_singleton.mp hk
    exact h.fresh hn
  room := by
    rw [List.length_append, List.length_singleton]
    exact h.room

/-- A request, with its answer. -/
structure Request (α κ : Type) where
  item : α
  name : κ
  sound : Bool
  granted : Bool

/-- One request; `none` when something else happens. -/
inductive Step : Directory α κ cap → Option (Request α κ) → Directory α κ cap → Prop where
  | granted {d : Directory α κ cap} {a : α} {k : κ} (h : d.Admits k) :
      Step d (some ⟨a, k, true, true⟩) (d.add a k h)
  | refused {d : Directory α κ cap} {a : α} {k : κ} {sound : Bool}
      (h : ¬ (sound = true ∧ d.Admits k)) : Step d (some ⟨a, k, sound, false⟩) d
  | idle {d : Directory α κ cap} : Step d none d

/-- The items of the granted requests, in order. -/
def grantedItems (es : List (Option (Request α κ))) : List (α × κ) :=
  es.filterMap fun e => e.bind fun r => if r.granted then some (r.item, r.name) else none

variable {d d' : Directory α κ cap}

/-- One step appends what it grants. -/
theorem Step.items {e : Option (Request α κ)} (h : Step d e d') :
    d'.items = d.items ++ grantedItems [e] := by
  cases h with
  | granted hadmits => rfl
  | refused hnot => exact (List.append_nil _).symm
  | idle => exact (List.append_nil _).symm

/-- **APPEND-ONLY**: after a run the items are those granted, in order. -/
theorem granted_run {es : List (Option (Request α κ))} (h : Run Step d es d') :
    d'.items = d.items ++ grantedItems es := by
  induction h with
  | nil => exact (List.append_nil _).symm
  | snoc e _ hst ih =>
    rw [hst.items, ih, List.append_assoc]
    congr 1
    exact List.filterMap_append.symm

/-- The item of a name. -/
def Directory.find [DecidableEq κ] (d : Directory α κ cap) (k : κ) : Option α :=
  (d.items.find? fun e => decide (e.2 = k)).map Prod.fst

/-- **LOOKUP**: a name finds the one item under it. -/
theorem Directory.find_eq_some_iff [DecidableEq κ] : d.find k = some a ↔ (a, k) ∈ d.items := by
  rw [Directory.find, Option.map_eq_some_iff]
  constructor
  · rintro ⟨⟨b, n⟩, hfind, rfl⟩
    have hn : n = k := by simpa using List.find?_some hfind
    exact hn ▸ List.mem_of_find?_eq_some hfind
  · intro hmem
    cases hfind : d.items.find? fun e => decide (e.2 = k) with
    | none =>
      have hne := List.find?_eq_none.mp hfind _ hmem
      exact absurd (decide_eq_true rfl) hne
    | some e =>
      have he : e.2 = k := by simpa using List.find?_some hfind
      refine ⟨e, rfl, ?_⟩
      rw [List.inj_on_of_nodup_map d.names (List.mem_of_find?_eq_some hfind) hmem he]

theorem Directory.find_eq_none_iff [DecidableEq κ] :
    d.find k = none ↔ ∀ a, (a, k) ∉ d.items := by
  rw [Option.eq_none_iff_forall_ne_some]
  exact forall_congr' fun a => not_congr find_eq_some_iff

end NamedDirectory
