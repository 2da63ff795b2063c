/-
Plans in order of their names.

A plan has each of its tables in ascending order of the names, each name once (`Plan.InOrder`): so is every plan that is
read. What is put behind all that is there goes to the end.

Results: `putByName_append` and `Plan.inOrder_of_parse`.
-/
import Mathlib.Tactic
import SharedBuffer.Plan.Basic

namespace SharedBuffer

/-- named values in ascending order of their names -/
def InNameOrder {α : Type} (l : List (String × α)) : Prop := l.Pairwise fun e f => e.1 < f.1

section

variable {α : Type} {name : String} {value : α} {l : List (String × α)} {e : String × α}

theorem mem_of_mem_putByName (h : e ∈ putByName name value l) : e = (name, value) ∨ e ∈ l := by
  induction l with
  | nil => exact .inl (List.mem_singleton.1 h)
  | cons head rest ih =>
    rw [putByName] at h
    split_ifs at h <;> grind

theorem InNameOrder.putByName (h : InNameOrder l) : InNameOrder (putByName name value l) := by
  induction l with
  | nil => exact List.pairwise_singleton _ _
  | cons head rest ih =>
    obtain ⟨n, v⟩ := head
    obtain ⟨hhead, hrest⟩ := List.pairwise_cons.1 h
    rw [SharedBuffer.putByName]
    split_ifs with hlt heq
    · refine List.pairwise_cons.2 ⟨fun f hf => ?_, h⟩
      rcases List.mem_cons.1 hf with rfl | hf
      · exact hlt
      · exact String.lt_trans hlt (hhead f hf)
    · exact heq ▸ List.pairwise_cons.2 ⟨hhead, hrest⟩
    · refine List.pairwise_cons.2 ⟨fun f hf => ?_, ih hrest⟩
      rcases mem_of_mem_putByName hf with rfl | hf
      · exact Std.lt_of_le_of_ne (String.not_lt.1 hlt) (Ne.symm heq)
      · exact hhead f hf

theorem inNameOrder_sortByName (l : List (String × α)) : InNameOrder (sortByName l) :=
  List.foldlRecOn l _ List.Pairwise.nil fun _ h _ _ => h.putByName

/-- all that stands before a value has a smaller name -/
theorem InNameOrder.behind {pre post : List (String × α)} (h : InNameOrder (pre ++ e :: post)) :
    ∀ f ∈ pre, f.1 < e.1 := fun f hf => (List.pairwise_append.1 h).2.2 f hf e List.mem_cons_self

/-- **What comes behind all that is there goes to the end.** -/
theorem putByName_append (h : ∀ f ∈ l, f.1 < name) : putByName name value l = l ++ [(name, value)] := by
  induction l with
  | nil => rfl
  | cons head rest ih =>
    have hhead := h head List.mem_cons_self
    rw [SharedBuffer.putByName, if_neg (String.lt_asymm hhead), if_neg (fun heq => ?_),
      ih fun f hf => h f (List.mem_cons_of_mem _ hf), List.cons_append]
    rw [heq] at hhead
    exact String.lt_irrefl _ hhead

end

namespace Plan

/-- a plan with its tables in order -/
structure InOrder (plan : Plan) : Prop where
  pools : InNameOrder plan.pools
  profiles : InNameOrder plan.profiles
  priorityGroups : InNameOrder plan.priorityGroups
  queues : InNameOrder plan.queues
  ports : InNameOrder plan.ports

theorem inNameOrder_of_fieldOr? {α : Type} {fields : List (String × Toml.Value)} {table : String}
    {element : Toml.Value → Option α} {l : List (String × α)}
    (h : Toml.fieldOr? fields table (Toml.Value.byName? element) [] = some l) : InNameOrder l := by
  unfold Toml.fieldOr? Toml.optionalField? at h
  cases hv : fields.lookup table with
  | none =>
    rw [hv] at h
    cases h
    exact List.Pairwise.nil
  | some v =>
    simp only [hv, Option.map_map, Option.map_eq_some_iff] at h
    obtain ⟨found, hfound, rfl⟩ := h
    cases v with
    | table origin entries =>
      obtain ⟨values, -, hsorted⟩ := Option.bind_eq_some_iff.1 hfound
      obtain rfl := Option.some.inj hsorted
      exact inNameOrder_sortByName values
    | _ => cases hfound

/-- **A plan that is read is in order.** -/
theorem inOrder_of_parse {text path : String} {plan : Plan} (h : parse text path = .ok plan) : plan.InOrder := by
  unfold parse at h
  split at h
  · rename_i hplan
    cases h
    obtain ⟨v, -, hplan⟩ := Option.bind_eq_some_iff.1 hplan
    unfold ofToml? at hplan
    obtain ⟨fields, -, hplan⟩ := Option.bind_eq_some_iff.1 hplan
    obtain ⟨pools, hpools, hplan⟩ := Option.bind_eq_some_iff.1 hplan
    obtain ⟨profiles, hprofiles, hplan⟩ := Option.bind_eq_some_iff.1 hplan
    obtain ⟨groups, hgroups, hplan⟩ := Option.bind_eq_some_iff.1 hplan
    obtain ⟨queues, hqueues, hplan⟩ := Option.bind_eq_some_iff.1 hplan
    obtain ⟨ports, hports, hplan⟩ := Option.bind_eq_some_iff.1 hplan
    cases hplan
    exact ⟨inNameOrder_of_fieldOr? hpools, inNameOrder_of_fieldOr? hprofiles, inNameOrder_of_fieldOr? hgroups,
      inNameOrder_of_fieldOr? hqueues, inNameOrder_of_fieldOr? hports⟩
  · cases h

end Plan

end SharedBuffer
