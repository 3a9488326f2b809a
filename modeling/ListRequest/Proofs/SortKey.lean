import ListRequest.Proofs.Text.Blank
import ListRequest.SortKey

/-! # Sort keys written back

A sort order reads back from its rendered keys as long as no field holds a point or begins with a
blank, and every key that is read from an entry has such a field.
-/

namespace ListRequest.SortKey
open Text
set_option autoImplicit false

/-- The field holds no point and begins with no blank. -/
def Writable (key : SortKey) : Prop :=
  '.' ∉ key.field.toList ∧ ∀ c, key.field.toList.head? = some c → isBlank c = false

theorem forall_ne_point {cs : List Char} (h : '.' ∉ cs) : ∀ c ∈ cs, decide (c ≠ '.') = true := by
  intro c hc
  have hne : c ≠ '.' := fun e => h (e ▸ hc)
  simpa using hne

theorem toList_render (key : SortKey) :
    key.render.toList = key.field.toList ++ '.' :: key.direction.text.toList := by
  have hpoint : ".".toList = ['.'] := rfl
  rw [render, String.toList_append, String.toList_append, hpoint, List.append_assoc,
    List.singleton_append]

theorem ofEntry?_eq_some_iff (entry : String) (key : SortKey) :
    ofEntry? entry = some key ↔ trimBlanks entry.toList ≠ [] ∧
      key.field.toList = (trimBlanks entry.toList).takeWhile (· ≠ '.') ∧
      key.direction = directionOf ((trimBlanks entry.toList).dropWhile (· ≠ '.')) := by
  unfold ofEntry?
  cases trimBlanks entry.toList with
  | nil => simp
  | cons c cs =>
    constructor
    · intro h
      cases h
      exact ⟨List.cons_ne_nil c cs, String.toList_ofList, rfl⟩
    · rintro ⟨-, hfield, hdirection⟩
      obtain ⟨field, direction⟩ := key
      obtain rfl := String.toList_inj.mp (hfield.trans String.toList_ofList.symm)
      obtain rfl := hdirection
      rfl

/-! ## Reading -/

theorem writable_of_ofEntry? {entry : String} {key : SortKey} (h : ofEntry? entry = some key) :
    key.Writable := by
  obtain ⟨-, hfield, -⟩ := (ofEntry?_eq_some_iff entry key).mp h
  rw [Writable, hfield]
  refine ⟨?_, ?_⟩
  · intro hm
    simpa using List.mem_takeWhile_imp hm
  · intro c hc
    obtain ⟨ds, hds⟩ := List.takeWhile_prefix (fun d : Char => decide (d ≠ '.'))
      (l := trimBlanks entry.toList)
    have hhead : (trimBlanks entry.toList).head? = some c := by
      rw [← hds, List.head?_append, hc]
      rfl
    exact isBlank_of_head?_trimBlanks hhead

/-! ## Writing -/

theorem trimBlanks_render {key : SortKey} (h : key.Writable) :
    trimBlanks key.render.toList = key.render.toList := by
  rw [toList_render]
  refine trimBlanks_eq_self ?_ ?_
  · intro c hc
    cases hfield : key.field.toList with
    | nil =>
      rw [hfield] at hc
      cases hc
      rfl
    | cons d ds =>
      rw [hfield] at hc
      cases hc
      exact h.2 c (by rw [hfield]; rfl)
  · intro c hc
    rw [List.getLast?_append] at hc
    cases hdir : key.direction with
    | ascending =>
      rw [hdir] at hc
      cases hc
      rfl
    | descending =>
      rw [hdir] at hc
      cases hc
      rfl

theorem ofEntry?_render {key : SortKey} (h : key.Writable) : ofEntry? key.render = some key := by
  have hfield := forall_ne_point h.1
  rw [ofEntry?_eq_some_iff, trimBlanks_render h, toList_render]
  refine ⟨by simp, ?_, ?_⟩
  · rw [List.takeWhile_append_of_pos hfield, List.takeWhile_cons_of_neg (by simp),
      List.append_nil]
  · rw [List.dropWhile_append_of_pos hfield, List.dropWhile_cons_of_neg (by simp)]
    simp [directionOf]

/-- A list of keys reads back from their renderings. -/
theorem filterMap_ofEntry?_render {keys : List SortKey} (h : ∀ key ∈ keys, key.Writable) :
    (keys.map render).filterMap ofEntry? = keys := by
  induction keys with
  | nil => rfl
  | cons key keys ih =>
    have hkey := ofEntry?_render (h key List.mem_cons_self)
    rw [List.map_cons, List.filterMap_cons, hkey]
    exact congrArg (key :: ·) (ih fun k hk => h k (List.mem_cons_of_mem key hk))

end ListRequest.SortKey
