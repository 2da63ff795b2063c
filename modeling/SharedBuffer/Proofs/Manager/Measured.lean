/-
How long the lists of a port are.

A head states the length of its list in 32 bits, and attaching and detaching move that number; nobody counts the list
again. For the lists of ports the number is right in every store that requests lead to: priority groups and queues only
ever join, each as it is made, and there are no more of a kind than 32 bits can count. `Store.Measured` says that it is
right; every move keeps to it, the one that brings a new member by one more on both sides.

Results: `Move.measured`, `Reached.measured`, and `Wired.length_lt_of_port`.
-/
import SharedBuffer.Proofs.Manager.Runs

namespace SharedBuffer

/-- whatever sequences the lists stand for, those of ports are as long as their heads state -/
def Store.Measured (s : Store Record) : Prop :=
  ∀ L, Linked s L → ∀ R o h, R.ownerKind = .port → s.headAt R o = some h → h.length.toNat = (L R o).length

section

variable {hw : Hardware} {s t u : Store Record} {L L' : Layout} {R : Roster} {k o : Key} {kind : ObjectKind}
  {r : Record}

/-- lists with the same members are equally long -/
theorem Linked.length_eq (hl : Linked s L) (hl' : Linked t L') (h : ∀ m, t.ownerOf? R m = s.ownerOf? R m) (o : Key) :
    (L' R o).length = (L R o).length :=
  ((List.perm_ext_iff_of_nodup (hl'.nodup R o) (hl.nodup R o)).2 fun m => by
    rw [← hl'.ownerOf?_eq_some, ← hl.ownerOf?_eq_some, h]).length_eq

/-- what ports list in one place is live, and of one kind -/
theorem Wired.live_of_port {out : Option Key} (w : Wired hw s L out) (hR : R.ownerKind = .port) :
    ∃ kind, ∀ o, ∀ k ∈ L R o, s.contains k = true ∧ k.kind = kind := by
  obtain ⟨kind, hkind⟩ : ∃ kind, ∀ k : Key, R.takes k.kind = true → k.kind = kind := by
    cases R
    case portPriorityGroups => exact ⟨.priorityGroup, fun k hk => by cases h : k.kind <;> simp_all [Roster.takes]⟩
    case portQueues => exact ⟨.queue, fun k hk => by cases h : k.kind <;> simp_all [Roster.takes]⟩
    all_goals exact absurd hR (by decide)
  exact ⟨kind, fun o k hk => ⟨(w.takes_of_mem hk).1, hkind k (w.takes_of_mem hk).2⟩⟩

/-- no port has more priority groups or queues than 32 bits can count -/
theorem Wired.length_lt_of_port {out : Option Key} (w : Wired hw s L out) (hR : R.ownerKind = .port) (o : Key) :
    (L R o).length < UInt32.size := by
  obtain ⟨kind, hlive⟩ := w.live_of_port hR
  exact w.handed.length_le (w.linked.nodup R o) (hlive o)

/-- nor have two ports together -/
theorem Wired.length_add_lt_of_port {out : Option Key} (w : Wired hw s L out) (hR : R.ownerKind = .port) {o o' : Key}
    (hne : o ≠ o') : (L R o).length + (L R o').length < UInt32.size := by
  obtain ⟨kind, hlive⟩ := w.live_of_port hR
  have hnodup : (L R o ++ L R o').Nodup := List.nodup_append.2 ⟨w.linked.nodup R o, w.linked.nodup R o',
    fun k hk k' hk' hsame => hne (w.linked.owner_unique (hsame ▸ hk) hk')⟩
  rw [← List.length_append]
  exact w.handed.length_le hnodup fun k hk => (List.mem_append.1 hk).elim (hlive o k) (hlive o' k)

namespace Store.Measured

/-- where no port gets another head, and nothing another port, lengths stay right -/
theorem congr (h : s.Measured) (hl : Linked s L)
    (hheads : ∀ R o h, R.ownerKind = .port → t.headAt R o = some h → s.headAt R o = some h)
    (howners : ∀ R m, R.ownerKind = .port → t.ownerOf? R m = s.ownerOf? R m) : t.Measured := by
  intro L' hl' R o hd hR hh
  rw [hl.length_eq hl' (fun m => howners R m hR)]
  exact h L hl R o hd hR (hheads R o hd hR hh)

/-- a new record has empty lists -/
theorem insert (h : s.Measured) (w : Wired hw s L none) (new : Inserted s t kind k r) (hr : r.Unlinked)
    (hempty : ∀ R h, R.ownerKind = .port → r.head? R = some h → h.length = 0) : t.Measured := by
  intro L' hl' R o hd hR hh
  have howners : ∀ m, t.ownerOf? R m = s.ownerOf? R m := fun m => new.ownerOf?_eq hr w.handed R
  rw [w.linked.length_eq hl' howners]
  rw [headAt, new.get] at hh
  by_cases hok : o = k
  · rw [if_pos hok, Option.bind_some] at hh
    rw [hok, w.eq_nil_of_new new.new, hempty R hd hR hh]
    rfl
  · rw [if_neg hok] at hh
    exact h L w.linked R o hd hR hh

/-- a member that joins is one more, in the list and in its head -/
theorem attach (h : s.Measured) (hl : Linked s L) (hrun : (Store.attach R o k).run s = (.ok (), t))
    (hroom : ∀ L', Linked t L' → R.ownerKind = .port → (L' R o).length < UInt32.size) : t.Measured := by
  obtain ⟨hd, ho, hk, rfl⟩ := (hl.attach_ends R o k).ok hrun
  have hattached := hl.attached ho hk
  intro L' hl' R' o' hd' hR hh
  have hlength := hattached.length_eq (R := R') hl' (fun _ => rfl) o'
  rw [headAt_attached] at hh
  by_cases hro : R' = R ∧ o' = o
  · obtain ⟨rfl, rfl⟩ := hro
    rw [if_pos ⟨rfl, rfl⟩, ho, Option.map_some, Option.some.injEq] at hh
    subst hh
    have hlt := hroom L' hl' hR
    rw [Layout.set_self, List.length_append, List.length_singleton] at hlength
    rw [hlength] at hlt ⊢
    rw [UInt32.toNat_add, h L hl R' o' hd hR ho, UInt32.toNat_one]
    exact Nat.mod_eq_of_lt hlt
  · rw [if_neg hro] at hh
    rw [hlength, Layout.set_of_ne hro]
    exact h L hl R' o' hd' hR hh

/-- a record that is in no list of a port may leave others, and go, and figures may be written -/
theorem retire {α : Type} {x : LinkM α} {a : Except LinkError α} (h : s.Measured) (hl : Linked s L)
    (hrun : x.run s = (a, u)) (gone : Retired u t k)
    (hheads : ∀ R o, R.ownerKind = .port → LinkM.Keeps (fun s => s.headAt R o) x)
    (howners : ∀ R m, R.ownerKind = .port → LinkM.Keeps (fun s => s.ownerOf? R m) x)
    (hfree : ∀ R, R.ownerKind = .port → s.ownerOf? R k = none) (figures : List (Key × Totals)) :
    (t.written figures).Measured := by
  refine h.congr hl (fun R o hd hR hh => ?_) fun R m hR => ?_
  · rw [headAt_written, headAt, gone.get] at hh
    split at hh
    · cases hh
    · exact ((hheads R o hR).of_run hrun).symm.trans hh
  · have hkeep : ∀ m, u.ownerOf? R m = s.ownerOf? R m := fun m => (howners R m hR).of_run hrun
    rw [ownerOf?_written, gone.ownerOf?_eq ((hkeep k).trans (hfree R hR)), hkeep]

end Store.Measured

/-- what a port can have is not in the lists of ports -/
theorem Roster.ne_of_port {R R' : Roster} (hR : R.ownerKind = .port) (h : R'.ownerKind ≠ .port) : R ≠ R' := by
  rintro rfl
  exact h hR

/-- a planned change has nothing to do with the lists of ports -/
theorem Change.keeps_ports (c : Change) (hR : R.ownerKind = .port) (k : Key) :
    LinkM.Keeps (fun s => s.headAt R k) c.apply ∧ LinkM.Keeps (fun s => s.linkAt R k) c.apply := by
  have hrelink : ∀ {R'} {m : Key} {target : Option Key}, R'.ownerKind ≠ .port →
      LinkM.Keeps (fun s => s.headAt R k) (Store.relink R' m target) ∧
        LinkM.Keeps (fun s => s.linkAt R k) (Store.relink R' m target) := fun hR' =>
    ⟨Store.Apart.relink (fun _ => Store.apart_headAt fun e => Roster.ne_of_port hR hR' e.1) _,
      Store.Apart.relink (fun _ => Store.apart_linkAt (Roster.ne_of_port hR hR')) _⟩
  have hedit : ∀ {j : Key} {f : Record → Record}, Record.KeepsWiring f →
      LinkM.Keeps (fun s => s.headAt R k) (LinkM.ofStore (Store.modify j f)) ∧
        LinkM.Keeps (fun s => s.linkAt R k) (LinkM.ofStore (Store.modify j f)) := fun hf =>
    ⟨LinkM.Keeps.modify fun s => Store.headAt_edit fun r => hf.head r R,
      LinkM.Keeps.modify fun s => Store.linkAt_edit fun r => hf.link r R⟩
  cases c with
  | bind consumer target => exact hrelink (by decide)
  | profilePool profile pool => exact hrelink (by decide)
  | profileSize profile size =>
    exact hedit (Record.keepsWiring_mapProfile (fun _ => rfl) (fun _ => rfl) fun _ => rfl)
  | profileHeadroom profile xoff xon =>
    exact hedit (Record.keepsWiring_mapProfile (fun _ => rfl) (fun _ => rfl) fun _ => rfl)
  | poolSize pool size => exact hedit (Record.keepsWiring_mapPool (fun _ => rfl) fun _ => rfl)
  | recompute pool => exact ⟨LinkM.Keeps.pure _, LinkM.Keeps.pure _⟩

end

end SharedBuffer
