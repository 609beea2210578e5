import LoadEngine.Proofs.ArenaPlaces
import LoadEngine.Session.Basic

/-! The arena of a session. Its places always hold what they are meant for, so a variable that is
written never touches a cursor; and the cursors of one branch are no other branch's. -/

namespace LoadEngine

def Resource.kind : Resource → SlotKind
  | .cursor _ => .cursor
  | _ => .variable

def Typed (sc : Scenario) (arena : List Resource) : Prop := arena.map Resource.kind = sc.arena

section Positions

variable {sc : Scenario} {key key' : ResourceKey} {kind : SlotKind} {branch branch' : Nat}

lemma typed_initial (sc : Scenario) : Typed sc (sc.arena.map .initial) := by
  unfold Typed
  rw [List.map_map]
  have hid : Resource.kind ∘ Resource.initial = id := by
    funext k
    cases k <;> rfl
  rw [hid, List.map_id]

lemma arena_eq (sc : Scenario) : sc.arena =
    sc.sessionSlots ++ (List.replicate sc.maxBranches sc.branchSlots).flatten := by
  unfold Scenario.arena
  split
  · rename_i hempty
    rw [List.isEmpty_iff.mp hempty]
    simp
  · rfl

lemma flatten_replicate_getElem? {α : Type} (l : List α) {n b i : Nat} (hb : b < n)
    (hi : i < l.length) : (List.replicate n l).flatten[b * l.length + i]? = l[i]? := by
  induction n generalizing b with
  | zero => omega
  | succ n ih =>
    rw [List.replicate_succ, List.flatten_cons]
    cases b with
    | zero => rw [Nat.zero_mul, Nat.zero_add, List.getElem?_append_left hi]
    | succ b =>
      have hle : l.length ≤ (b + 1) * l.length + i := by
        rw [Nat.succ_mul]
        omega
      rw [List.getElem?_append_right hle, ← ih (b := b) (by omega)]
      congr 1
      rw [Nat.succ_mul]
      omega

lemma arena_position (hkey : sc.layout.kind? key = some kind) (hbranch : branch < sc.maxBranches) :
    sc.arena[Session.position sc key branch]? = some kind := by
  rw [arena_eq]
  unfold Session.position
  unfold ArenaLayout.kind? Scenario.layout at hkey
  cases hscope : key.scope with
  | session =>
    rw [hscope] at hkey
    rw [List.getElem?_append_left (List.getElem?_eq_some_iff.mp hkey).1]
    exact hkey
  | branch =>
    rw [hscope] at hkey
    have hlt := (List.getElem?_eq_some_iff.mp hkey).1
    rw [← hkey]
    simp only [Nat.add_assoc]
    rw [List.getElem?_append_right (Nat.le_add_right _ _), Nat.add_sub_cancel_left]
    exact flatten_replicate_getElem? _ hbranch hlt

lemma position_inj (hkey : key.scope = .branch) (hkind : sc.layout.kind? key = some kind)
    {kind' : SlotKind} (hkey' : key'.scope = .branch) (hkind' : sc.layout.kind? key' = some kind')
    (h : Session.position sc key branch = Session.position sc key' branch') :
    branch = branch' ∧ key = key' := by
  obtain ⟨scope, index⟩ := key
  obtain ⟨scope', index'⟩ := key'
  obtain rfl : scope = .branch := hkey
  obtain rfl : scope' = .branch := hkey'
  have hlt : index < sc.branchSlots.length := (List.getElem?_eq_some_iff.mp hkind).1
  have hlt' : index' < sc.branchSlots.length := (List.getElem?_eq_some_iff.mp hkind').1
  simp only [Session.position] at h
  have hpos : 0 < sc.branchSlots.length := by omega
  have hdiv : branch = branch' := by
    have hquot : ∀ b i, i < sc.branchSlots.length →
        (b * sc.branchSlots.length + i) / sc.branchSlots.length = b := by
      intro b i hi
      rw [Nat.mul_comm, Nat.mul_add_div hpos, Nat.div_eq_of_lt hi, Nat.add_zero]
    rw [← hquot branch index hlt, ← hquot branch' index' hlt']
    congr 1
    omega
  subst hdiv
  refine ⟨rfl, ?_⟩
  congr 1
  omega

end Positions

namespace Session

def cursor? (sc : Scenario) (s : Session) (key : ResourceKey) (branch : Nat) :
    Option Search.Cursor :=
  match s.resource? sc key branch with
  | some (.cursor c) => some c
  | _ => none

def onCursor (f : Search.Cursor → Search.Cursor) : Resource → Resource
  | .cursor c => .cursor (f c)
  | r => r

variable {sc : Scenario} {s : Session} {key key' : ResourceKey} {branch branch' : Nat}
  {f : Resource → Resource}

lemma onResource_arena (sc : Scenario) (s : Session) (key : ResourceKey) (branch : Nat)
    (f : Resource → Resource) (j : Nat) :
    (s.onResource sc key branch f).arena[j]? =
      if position sc key branch = j then s.arena[j]?.map f else s.arena[j]? := by
  simp only [onResource, List.getElem?_modify]
  split <;> simp

lemma typed_getElem? {arena : List Resource} (h : Typed sc arena) {j : Nat} {r : Resource}
    (hr : arena[j]? = some r) : sc.arena[j]? = some r.kind := by
  rw [← h, List.getElem?_map, hr]
  rfl

lemma typed_onResource (h : Typed sc s.arena)
    (hf : ∀ r, s.arena[position sc key branch]? = some r → (f r).kind = r.kind) :
    Typed sc (s.onResource sc key branch f).arena := by
  unfold Typed at h ⊢
  rw [← h]
  apply List.ext_getElem?
  intro j
  rw [List.getElem?_map, List.getElem?_map, onResource_arena]
  by_cases hj : position sc key branch = j
  · rw [if_pos hj]
    cases hr : s.arena[j]? with
    | none => rfl
    | some r =>
      rw [← hj] at hr
      simp [hf r hr]
  · rw [if_neg hj]

lemma cursor?_eq_some {c : Search.Cursor} :
    s.cursor? sc key branch = some c ↔ s.resource? sc key branch = some (.cursor c) := by
  unfold cursor?
  cases s.resource? sc key branch with
  | none => simp
  | some r => cases r <;> simp

lemma cursor?_onResource_ne (h : position sc key branch ≠ position sc key' branch') :
    (s.onResource sc key branch f).cursor? sc key' branch' = s.cursor? sc key' branch' := by
  unfold cursor? resource?
  rw [onResource_arena, if_neg h]

lemma write_variable (h : Typed sc s.arena) (hkey : sc.layout.kind? key = some .variable)
    (hbranch : branch < sc.maxBranches) (hf : ∀ r, (f r).kind = .variable) :
    Typed sc (s.onResource sc key branch f).arena ∧
      ∀ key' branch', (s.onResource sc key branch f).cursor? sc key' branch' =
        s.cursor? sc key' branch' := by
  have hplace := arena_position hkey hbranch
  have hkind : ∀ r, s.arena[position sc key branch]? = some r → r.kind = .variable := by
    intro r hr
    have hr' := typed_getElem? h hr
    rw [hplace, Option.some.injEq] at hr'
    exact hr'.symm
  refine ⟨typed_onResource h fun r hr => by rw [hf r, hkind r hr], ?_⟩
  intro key' branch'
  by_cases hp : position sc key branch = position sc key' branch'
  · unfold cursor? resource?
    rw [onResource_arena, if_pos hp]
    cases hr : s.arena[position sc key' branch']? with
    | none => rfl
    | some r =>
      have hvar := hkind r (by rw [hp]; exact hr)
      have hnew := hf r
      cases r with
      | cursor c => cases hvar
      | _ =>
        simp only [Option.map_some]
        split
        · rename_i c hc
          rw [Option.some.inj hc] at hnew
          cases hnew
        · rfl
  · exact cursor?_onResource_ne hp

lemma cursor?_onCursor (f : Search.Cursor → Search.Cursor)
    (h : position sc key branch = position sc key' branch') :
    (s.onResource sc key branch (onCursor f)).cursor? sc key' branch' =
      (s.cursor? sc key' branch').map f := by
  unfold cursor? resource?
  rw [onResource_arena, if_pos h]
  cases s.arena[position sc key' branch']? with
  | none => rfl
  | some r => cases r <;> rfl

lemma onCursors_cons (sc : Scenario) (s : Session) (v : BoundValidator) (rest : List BoundValidator)
    (branch : Nat) (f : Search.Validator → Search.Cursor → Search.Cursor) :
    s.onCursors sc (v :: rest) branch f =
      (s.onResource sc v.key branch (onCursor (f v.validator))).onCursors sc rest branch f := by
  unfold onCursors
  rw [List.foldl_cons]
  congr 2

def Places (sc : Scenario) (validators : List BoundValidator) : Prop :=
  (validators.map BoundValidator.key).Nodup ∧
    ∀ v ∈ validators, v.key.scope = .branch ∧ sc.layout.kind? v.key = some .cursor

lemma onCursors_frame (sc : Scenario) (s : Session) (validators : List BoundValidator)
    (branch : Nat)
    (f : Search.Validator → Search.Cursor → Search.Cursor) :
    (s.onCursors sc validators branch f) =
      { s with arena := (s.onCursors sc validators branch f).arena } := by
  induction validators generalizing s with
  | nil => rfl
  | cons v rest ih =>
    rw [onCursors_cons, ih]
    rfl

lemma onCursors_arena_congr (sc : Scenario) {s s' : Session} (h : s'.arena = s.arena)
    (validators : List BoundValidator) (branch : Nat)
    (f : Search.Validator → Search.Cursor → Search.Cursor) :
    (s'.onCursors sc validators branch f).arena = (s.onCursors sc validators branch f).arena := by
  induction validators generalizing s s' with
  | nil => exact h
  | cons v rest ih =>
    rw [onCursors_cons, onCursors_cons]
    apply ih
    simp only [onResource, h]

lemma typed_onCursors (h : Typed sc s.arena) (validators : List BoundValidator) (branch : Nat)
    (f : Search.Validator → Search.Cursor → Search.Cursor) :
    Typed sc (s.onCursors sc validators branch f).arena := by
  induction validators generalizing s with
  | nil => exact h
  | cons v rest ih =>
    rw [onCursors_cons]
    refine ih (typed_onResource h ?_)
    intro r hr
    cases r <;> rfl

lemma cursor?_onCursors_ne {validators : List BoundValidator} (hv : Places sc validators)
    (f : Search.Validator → Search.Cursor → Search.Cursor) (hkey : key.scope = .branch)
    (hkind : sc.layout.kind? key = some .cursor)
    (hne : branch' ≠ branch ∨ key ∉ validators.map BoundValidator.key) :
    (s.onCursors sc validators branch f).cursor? sc key branch' = s.cursor? sc key branch' := by
  induction validators generalizing s with
  | nil => rfl
  | cons v rest ih =>
    obtain ⟨hnodup, hplaces⟩ := hv
    rw [List.map_cons, List.nodup_cons] at hnodup
    obtain ⟨hfirst, hrest⟩ := List.forall_mem_cons.mp hplaces
    rw [onCursors_cons,
      ih ⟨hnodup.2, hrest⟩ (hne.imp id fun h hmem => h (List.mem_cons_of_mem _ hmem)),
      cursor?_onResource_ne]
    intro hp
    obtain ⟨hb, hk⟩ := position_inj hfirst.1 hfirst.2 hkey hkind hp
    rcases hne with hne | hne
    · exact hne hb.symm
    · exact hne (by rw [← hk]; exact List.mem_cons_self)

lemma cursor?_onCursors (s : Session) (branch : Nat) {validators : List BoundValidator}
    (hv : Places sc validators) (f : Search.Validator → Search.Cursor → Search.Cursor)
    {v : BoundValidator}
    (hmem : v ∈ validators) :
    (s.onCursors sc validators branch f).cursor? sc v.key branch =
      (s.cursor? sc v.key branch).map (f v.validator) := by
  induction validators generalizing s with
  | nil => cases hmem
  | cons w rest ih =>
    obtain ⟨hnodup, hplaces⟩ := hv
    rw [List.map_cons, List.nodup_cons] at hnodup
    obtain ⟨hfirst, hrest⟩ := List.forall_mem_cons.mp hplaces
    rw [onCursors_cons]
    rcases List.mem_cons.mp hmem with rfl | hmem
    · rw [cursor?_onCursors_ne ⟨hnodup.2, hrest⟩ f hfirst.1 hfirst.2 (.inr hnodup.1),
        cursor?_onCursor _ rfl]
    · obtain ⟨hscope, hkind⟩ := hrest v hmem
      rw [ih _ ⟨hnodup.2, hrest⟩ hmem, cursor?_onResource_ne]
      intro hp
      obtain ⟨-, hk⟩ := position_inj hfirst.1 hfirst.2 hscope hkind hp
      exact hnodup.1 (by rw [hk]; exact List.mem_map_of_mem hmem)

lemma exists_cursor (h : Typed sc s.arena) (hkind : sc.layout.kind? key = some .cursor)
    (hbranch : branch < sc.maxBranches) : ∃ c, s.cursor? sc key branch = some c := by
  have hplace := arena_position hkind hbranch
  rw [← h, List.getElem?_map, Option.map_eq_some_iff] at hplace
  obtain ⟨r, hr, hkindr⟩ := hplace
  cases r with
  | cursor c => exact ⟨c, by rw [cursor?, resource?, hr]⟩
  | _ => cases hkindr

end Session

end LoadEngine
