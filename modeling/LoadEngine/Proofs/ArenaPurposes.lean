import LoadEngine.Proofs.ArenaCursors
import LoadEngine.Proofs.ResolvedDraft

/-! What the places of an arena are for. No two that were given out fall together, in one branch or
in two; and what is written is only ever what a place is for. -/

namespace LoadEngine

inductive Purpose.Allows : Purpose → Resource → Prop
  | unset (kind : VariableKind) : Allows (.var kind) .unset
  | int (value : Int) : Allows (.var .int) (.int value)
  | text (value : String) : Allows (.var .text) (.text value)
  | cursor (c : Search.Cursor) : Allows .cursor (.cursor c)

def Step.keys : Step Variable → List ResourceKey
  | action a => a.reference?.toList.map Variable.key
  | operation op => op.validators.map BoundValidator.key
  | declare _ key => [key]
  | _ => []

def Furnished (sc : Scenario) (arena : List Resource) : Prop :=
  ∀ item ∈ sc.items, ∀ branch < sc.maxBranches,
    ∃ r, arena[Session.position sc item.1 branch]? = some r ∧ item.2.Allows r

structure Write where
  place : Nat
  change : Resource → Option Resource

/-- These writes were made, and no others. -/
structure Made (writes : List Write) (arena arena' : List Resource) : Prop where
  made : ∀ w ∈ writes, ∃ r r', arena[w.place]? = some r ∧ w.change r = some r' ∧
    arena'[w.place]? = some r'
  spared : ∀ j, j ∉ writes.map Write.place → arena'[j]? = arena[j]?

def Write.Fits (sc : Scenario) (w : Write) : Prop :=
  ∃ item ∈ sc.items, ∃ branch < sc.maxBranches, w.place = Session.position sc item.1 branch ∧
    ∀ r r', item.2.Allows r → w.change r = some r' → item.2.Allows r'

section Positions

variable {sc : Scenario} {key key' : ResourceKey} {kind kind' : SlotKind} {branch branch' : Nat}

lemma position_apart (hkind : sc.layout.kind? key = some kind)
    (hkind' : sc.layout.kind? key' = some kind')
    (h : Session.position sc key branch = Session.position sc key' branch') :
    key = key' ∧ (key.scope = .branch → branch = branch') := by
  obtain ⟨scope, index⟩ := key
  obtain ⟨scope', index'⟩ := key'
  cases scope with
  | session =>
    have hlt : index < sc.sessionSlots.length := (List.getElem?_eq_some_iff.mp hkind).1
    cases scope' with
    | session => exact ⟨congrArg (ResourceKey.mk .session) h, nofun⟩
    | branch =>
      simp only [Session.position] at h
      omega
  | branch =>
    cases scope' with
    | session =>
      have hlt : index' < sc.sessionSlots.length := (List.getElem?_eq_some_iff.mp hkind').1
      simp only [Session.position] at h
      omega
    | branch =>
      obtain ⟨hbranch, hkey⟩ := position_inj rfl hkind rfl hkind' h
      exact ⟨hkey, fun _ => hbranch⟩

lemma arena_length (sc : Scenario) :
    sc.arena.length = sc.sessionSlots.length + sc.branchSlots.length * sc.maxBranches := by
  rw [arena_eq, List.length_append, List.length_flatten, List.map_replicate,
    List.sum_replicate_nat, Nat.mul_comm]

lemma Typed.length {arena : List Resource} (h : Typed sc arena) :
    arena.length = sc.sessionSlots.length + sc.branchSlots.length * sc.maxBranches := by
  rw [← arena_length, ← h, List.length_map]

end Positions

namespace Draft.Yields

variable {d : Draft} {sc : Scenario} {arena : List Resource}

lemma apart (h : d.Yields sc) {i j : Nat} {item item' : ResourceKey × Purpose}
    {branch branch' : Nat} (hi : sc.items[i]? = some item) (hj : sc.items[j]? = some item')
    (hp : Session.position sc item.1 branch = Session.position sc item'.1 branch') :
    i = j ∧ (item.1.scope = .branch → branch = branch') := by
  obtain ⟨hkey, hbranch⟩ := position_apart (h.given item (List.mem_of_getElem? hi))
    (h.given item' (List.mem_of_getElem? hj)) hp
  refine ⟨?_, hbranch⟩
  have hlt : i < (sc.items.map Prod.fst).length := by
    rw [List.length_map]
    exact (List.getElem?_eq_some_iff.mp hi).1
  refine (List.getElem?_inj hlt h.nodup).mp ?_
  rw [List.getElem?_map, List.getElem?_map, hi, hj, Option.map_some, Option.map_some, hkey]

lemma item_of_place (h : d.Yields sc) {item item' : ResourceKey × Purpose} {branch branch' : Nat}
    (hitem : item ∈ sc.items) (hitem' : item' ∈ sc.items)
    (hp : Session.position sc item.1 branch = Session.position sc item'.1 branch') :
    item = item' := by
  obtain ⟨hkey, -⟩ := position_apart (h.given item hitem) (h.given item' hitem') hp
  exact List.inj_on_of_nodup_map h.nodup hitem hitem' hkey

lemma exists_item (h : d.Yields sc) {step : LoadEngine.Step Variable} (hstep : step ∈ sc.steps)
    {key : ResourceKey} (hkey : key ∈ step.keys) : ∃ purpose, (key, purpose) ∈ sc.items := by
  have hgiven : ∀ {step : LoadEngine.Step Variable} {item : ResourceKey × Purpose},
      step ∈ sc.steps → item ∈ step.items → item ∈ sc.items :=
    fun hstep hitem => List.mem_flatMap.mpr ⟨_, hstep, hitem⟩
  cases step with
  | action a =>
    obtain ⟨var, hvar, rfl⟩ := List.mem_map.mp hkey
    obtain ⟨declaration, hdeclare, -, -⟩ := h.resolves a hstep var (Option.mem_toList.mp hvar)
    exact ⟨_, hgiven hdeclare List.mem_cons_self⟩
  | operation op =>
    obtain ⟨v, hv, rfl⟩ := List.mem_map.mp hkey
    exact ⟨.cursor, hgiven hstep (List.mem_map_of_mem hv)⟩
  | declare declaration key =>
    obtain rfl := List.mem_singleton.mp hkey
    exact ⟨_, hgiven hstep List.mem_cons_self⟩
  | _ => cases hkey

lemma exists_variable (h : d.Yields sc) {a : Action Variable} (ha : .action a ∈ sc.steps)
    {var : Variable} (hvar : a.reference? = some var) :
    ∃ kind, (var.key, .var kind) ∈ sc.items ∧
      ∀ expected, a.kind? = some expected → expected = kind := by
  obtain ⟨declaration, hdeclare, -, hkind⟩ := h.resolves a ha var hvar
  exact ⟨declaration.kind, List.mem_flatMap.mpr ⟨_, hdeclare, List.mem_cons_self⟩, hkind⟩

lemma furnished_initial (h : d.Yields sc) : Furnished sc (sc.arena.map .initial) := by
  intro item hitem branch hbranch
  refine ⟨.initial item.2.slot, ?_, ?_⟩
  · rw [List.getElem?_map, arena_position (h.given item hitem) hbranch]
    rfl
  · cases item.2 with
    | var kind => exact .unset kind
    | cursor => exact .cursor .start

lemma furnished_made (h : d.Yields sc) {arena' : List Resource} {writes : List Write}
    (hf : Furnished sc arena) (hm : Made writes arena arena') (hw : ∀ w ∈ writes, w.Fits sc) :
    Furnished sc arena' := by
  intro item hitem branch hbranch
  obtain ⟨r, hr, hallows⟩ := hf item hitem branch hbranch
  by_cases hplace : Session.position sc item.1 branch ∈ writes.map Write.place
  · obtain ⟨w, hmem, hplace⟩ := List.mem_map.mp hplace
    obtain ⟨before, after, hbefore, hchange, hafter⟩ := hm.made w hmem
    obtain ⟨other, hother, branch', -, hw, hfits⟩ := hw w hmem
    -- the write was meant for this item, since it is the only one in the place
    obtain rfl := h.item_of_place hitem hother (hplace.symm.trans hw)
    rw [hplace] at hbefore hafter
    rw [hr, Option.some.injEq] at hbefore
    subst hbefore
    exact ⟨after, hafter, hfits r after hallows hchange⟩
  · exact ⟨r, (hm.spared _ hplace).trans hr, hallows⟩

end Draft.Yields

namespace Made

variable {arena arena' : List Resource} {writes : List Write}

lemma refl (arena : List Resource) : Made [] arena arena := ⟨by simp, fun _ _ => rfl⟩

lemma modify {place : Nat} {r : Resource} {change : Resource → Option Resource}
    (hr : arena[place]? = some r) (f : Resource → Resource) (hchange : change r = some (f r)) :
    Made [⟨place, change⟩] arena (arena.modify place f) where
  made := by
    intro w hw
    obtain rfl := List.mem_singleton.mp hw
    refine ⟨r, f r, hr, hchange, ?_⟩
    rw [List.getElem?_modify, hr]
    simp
  spared := by
    intro j hj
    have hne : place ≠ j := by simpa [eq_comm] using hj
    simp [hne]

end Made

end LoadEngine
