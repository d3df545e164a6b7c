import Mathlib.Data.List.Forall2
import ProofDump.Fault

/-!
# Operations that can fail

How a chain of operations comes to its result: through a result of every link, and a walk over a list
through a result for every member.
-/

namespace ProofDump

theorem bind_eq_ok {α β : Type} {first : Except Fault α} {next : α → Except Fault β} {result : β} :
    first >>= next = .ok result ↔ ∃ value, first = .ok value ∧ next value = .ok result := by
  cases first with
  | error fault =>
      constructor
      · intro hresult
        cases hresult
      · rintro ⟨value, hvalue, _⟩
        cases hvalue
  | ok value =>
      refine ⟨fun hnext => ⟨value, rfl, hnext⟩, ?_⟩
      rintro ⟨other, hother, hnext⟩
      cases hother
      exact hnext

theorem ok_bind {α β : Type} (value : α) (next : α → Except Fault β) :
    Except.ok value >>= next = next value := rfl

theorem mapM_eq_ok_map {α β : Type} {f : α → Except Fault β} {g : α → β} {items : List α}
    (hitems : ∀ item ∈ items, f item = .ok (g item)) : items.mapM f = .ok (items.map g) := by
  induction items with
  | nil => rfl
  | cons item rest ih =>
      rw [List.mapM_cons, hitems item List.mem_cons_self,
        ih fun other hother => hitems other (List.mem_cons_of_mem _ hother)]
      rfl

theorem mapM_eq_ok_iff {α β : Type} {f : α → Except Fault β} {items : List α} {results : List β} :
    items.mapM f = .ok results ↔ List.Forall₂ (fun item result => f item = .ok result) items results := by
  induction items generalizing results with
  | nil =>
      rw [List.mapM_nil, List.forall₂_nil_left_iff]
      exact ⟨fun hok => (Except.ok.inj hok).symm, fun hnil => congrArg _ hnil.symm⟩
  | cons item rest ih =>
      rw [List.mapM_cons, List.forall₂_cons_left_iff]
      constructor
      · intro hok
        obtain ⟨result, hitem, hok⟩ := bind_eq_ok.1 hok
        obtain ⟨others, hrest, hok⟩ := bind_eq_ok.1 hok
        exact ⟨result, others, hitem, ih.1 hrest, (Except.ok.inj hok).symm⟩
      · rintro ⟨result, others, hitem, hrest, rfl⟩
        rw [hitem, ih.2 hrest]
        rfl

theorem map_of_mapM {α β γ : Type} {f : α → Except Fault β} {g : β → γ} {h : α → γ} {items : List α}
    {results : List β} (hresults : items.mapM f = .ok results)
    (hitems : ∀ item ∈ items, ∀ result, f item = .ok result → g result = h item) :
    results.map g = items.map h := by
  induction mapM_eq_ok_iff.1 hresults with
  | nil => rfl
  | cons hitem hrest ih =>
      obtain ⟨hfirst, hothers⟩ := List.forall_mem_cons.1 hitems
      rw [List.map_cons, List.map_cons, hfirst _ hitem, ih (mapM_eq_ok_iff.2 hrest) hothers]

theorem mapM_congr {α β : Type} {f g : α → Except Fault β} {items : List α}
    (hitems : ∀ item ∈ items, f item = g item) : items.mapM f = items.mapM g := by
  induction items with
  | nil => rfl
  | cons item rest ih =>
      rw [List.mapM_cons, List.mapM_cons, hitems item List.mem_cons_self,
        ih fun other hother => hitems other (List.mem_cons_of_mem _ hother)]

theorem exists_of_mem_mapM {α β : Type} {f : α → Except Fault β} {items : List α} {results : List β}
    (hresults : items.mapM f = .ok results) {result : β} (hresult : result ∈ results) :
    ∃ item ∈ items, f item = .ok result := by
  induction mapM_eq_ok_iff.1 hresults with
  | nil => cases hresult
  | cons hitem hrest ih =>
      rcases List.mem_cons.1 hresult with rfl | hresult
      · exact ⟨_, List.mem_cons_self, hitem⟩
      · obtain ⟨other, hother, hsame⟩ := ih (mapM_eq_ok_iff.2 hrest) hresult
        exact ⟨other, List.mem_cons_of_mem _ hother, hsame⟩

theorem exists_mapM_eq_ok {α β : Type} {f : α → Except Fault β} {items : List α}
    (hitems : ∀ item ∈ items, ∃ result, f item = .ok result) : ∃ results, items.mapM f = .ok results := by
  induction items with
  | nil => exact ⟨[], rfl⟩
  | cons item rest ih =>
      obtain ⟨⟨result, hitem⟩, hrest⟩ := List.forall_mem_cons.1 hitems
      obtain ⟨results, hresults⟩ := ih hrest
      exact ⟨result :: results, mapM_eq_ok_iff.2 (.cons hitem (mapM_eq_ok_iff.1 hresults))⟩

theorem exists_ok_of_mapM {α β : Type} {f : α → Except Fault β} {items : List α} {results : List β}
    (hresults : items.mapM f = .ok results) : ∀ item ∈ items, ∃ result, f item = .ok result := by
  induction mapM_eq_ok_iff.1 hresults with
  | nil => exact List.forall_mem_nil _
  | cons hitem hrest ih => exact List.forall_mem_cons.2 ⟨⟨_, hitem⟩, ih (mapM_eq_ok_iff.2 hrest)⟩

theorem mem_of_mapM_eq_ok {α β : Type} {f : α → Except Fault β} {items : List α} {results : List β}
    (hresults : items.mapM f = .ok results) {item : α} (hitem : item ∈ items) {result : β}
    (hresult : f item = .ok result) : result ∈ results := by
  induction mapM_eq_ok_iff.1 hresults with
  | nil => cases hitem
  | cons hfirst hrest ih =>
      rcases List.mem_cons.1 hitem with rfl | hitem
      · rw [hfirst] at hresult
        cases hresult
        exact List.mem_cons_self
      · exact List.mem_cons_of_mem _ (ih (mapM_eq_ok_iff.2 hrest) hitem)

theorem exists_of_mem_option_mapM {α β : Type} {f : α → Except Fault β} {item : Option α} {result : Option β}
    (hresult : item.mapM f = .ok result) {found : β} (hfound : found ∈ result) :
    ∃ a ∈ item, f a = .ok found := by
  cases item with
  | none =>
      cases hresult
      cases hfound
  | some a =>
      rw [Option.mapM_some] at hresult
      cases ha : f a with
      | error fault =>
          rw [ha] at hresult
          cases hresult
      | ok other =>
          rw [ha] at hresult
          cases hresult
          cases hfound
          exact ⟨a, rfl, ha⟩

theorem exists_option_mapM_eq_ok {α β : Type} {f : α → Except Fault β} {item : Option α}
    (hitem : ∀ a ∈ item, ∃ result, f a = .ok result) : ∃ result, item.mapM f = .ok result := by
  cases item with
  | none => exact ⟨none, rfl⟩
  | some a =>
      obtain ⟨result, hresult⟩ := hitem a rfl
      exact ⟨some result, by rw [Option.mapM_some, hresult]; rfl⟩

theorem filterM_map_eq_ok {α β : Type} {f : β → Except Fault Bool} {g : α → Bool} {h : α → β}
    {items : List α} (hitems : ∀ item ∈ items, f (h item) = .ok (g item)) :
    (items.map h).filterM f = .ok ((items.filter g).map h) := by
  have hwalk (kept : List β) :
      (items.map h).filterAuxM f kept = .ok (((items.filter g).map h).reverse ++ kept) := by
    induction items generalizing kept with
    | nil => rfl
    | cons item rest ih =>
        rw [List.map_cons, List.filterAuxM, hitems item List.mem_cons_self]
        show (rest.map h).filterAuxM f (cond (g item) (h item :: kept) kept) = _
        rw [ih fun other hother => hitems other (List.mem_cons_of_mem _ hother)]
        cases hitem : g item with
        | true => simp [hitem]
        | false => simp [hitem]
  rw [List.filterM, hwalk []]
  show Except.ok _ = _
  rw [List.append_nil, List.reverse_reverse]

theorem filterM_eq_ok_filter {α : Type} {f : α → Except Fault Bool} {g : α → Bool} {items : List α}
    (hitems : ∀ item ∈ items, f item = .ok (g item)) : items.filterM f = .ok (items.filter g) := by
  have hmap := filterM_map_eq_ok (h := id) hitems
  rwa [List.map_id, List.map_id] at hmap

theorem mem_of_filterM_eq_ok {α : Type} {f : α → Except Fault Bool} {items result : List α}
    (hresult : items.filterM f = .ok result) {item : α} : item ∈ result ↔ item ∈ items ∧ f item = .ok true := by
  have hwalk {kept found : List α} (hfound : items.filterAuxM f kept = .ok found) :
      item ∈ found ↔ item ∈ kept ∨ item ∈ items ∧ f item = .ok true := by
    clear hresult
    induction items generalizing kept with
    | nil =>
        cases hfound
        simp
    | cons first rest ih =>
        obtain ⟨keeps, hkeeps, hfound⟩ := bind_eq_ok.1 hfound
        rw [ih hfound, List.mem_cons]
        cases keeps with
        | true =>
            rw [cond_true, List.mem_cons, or_and_right]
            constructor
            · rintro ((rfl | hkept) | hrest)
              · exact .inr (.inl ⟨rfl, hkeeps⟩)
              · exact .inl hkept
              · exact .inr (.inr hrest)
            · rintro (hkept | ⟨rfl, -⟩ | hrest)
              · exact .inl (.inr hkept)
              · exact .inl (.inl rfl)
              · exact .inr hrest
        | false =>
            rw [cond_false, or_and_right]
            refine or_congr_right (iff_or_self.2 ?_)
            rintro ⟨rfl, hitem⟩
            cases hkeeps.symm.trans hitem
  obtain ⟨found, hfound, hreverse⟩ := bind_eq_ok.1 hresult
  cases hreverse
  rw [List.mem_reverse, hwalk hfound]
  exact or_iff_right List.not_mem_nil

theorem filterMapM_eq_ok_filterMap {α β : Type} {f : α → Except Fault (Option β)} {g : α → Option β}
    {items : List α} (hitems : ∀ item ∈ items, f item = .ok (g item)) :
    items.filterMapM f = .ok (items.filterMap g) := by
  induction items with
  | nil => rfl
  | cons item rest ih =>
      rw [List.filterMapM_cons, hitems item List.mem_cons_self,
        ih fun other hother => hitems other (List.mem_cons_of_mem _ hother), List.filterMap_cons]
      cases g item with
      | none => rfl
      | some result => rfl

/-- A walk that keeps what it makes of the members that pass a test. -/
theorem filterMapM_map_eq_ok {α β γ : Type} {f : β → Except Fault (Option γ)} {keeps : α → Bool}
    {g : α → γ} {h : α → β} {items : List α}
    (hitems : ∀ item ∈ items, f (h item) = .ok (if keeps item then some (g item) else none)) :
    (items.map h).filterMapM f = .ok ((items.filter keeps).map g) := by
  induction items with
  | nil => rfl
  | cons item rest ih =>
      rw [List.map_cons, List.filterMapM_cons, hitems item List.mem_cons_self,
        ih fun other hother => hitems other (List.mem_cons_of_mem _ hother), List.filter_cons]
      cases keeps item with
      | true => rfl
      | false => rfl

theorem filterMapM_congr {α β : Type} {f g : α → Except Fault (Option β)} {items : List α}
    (hitems : ∀ item ∈ items, f item = g item) : items.filterMapM f = items.filterMapM g := by
  induction items with
  | nil => rfl
  | cons item rest ih =>
      rw [List.filterMapM_cons, List.filterMapM_cons, hitems item List.mem_cons_self,
        ih fun other hother => hitems other (List.mem_cons_of_mem _ hother)]

theorem exists_ok_of_filterMapM {α β : Type} {f : α → Except Fault (Option β)} {items : List α}
    {result : List β} (hresult : items.filterMapM f = .ok result) :
    ∀ item ∈ items, ∃ one, f item = .ok one := by
  induction items generalizing result with
  | nil => simp
  | cons item rest ih =>
      rw [List.filterMapM_cons] at hresult
      obtain ⟨one, hone, hresult⟩ := bind_eq_ok.1 hresult
      have hrest : ∃ others, rest.filterMapM f = .ok others := by
        cases one with
        | none => exact ⟨result, hresult⟩
        | some found =>
            obtain ⟨others, hothers, -⟩ := bind_eq_ok.1 hresult
            exact ⟨others, hothers⟩
      obtain ⟨others, hothers⟩ := hrest
      intro other hother
      rcases List.mem_cons.1 hother with rfl | hother
      · exact ⟨one, hone⟩
      · exact ih hothers other hother

theorem exists_of_mem_filterMapM {α β : Type} {f : α → Except Fault (Option β)} {items : List α}
    {results : List β} (hresults : items.filterMapM f = .ok results) {result : β} (hresult : result ∈ results) :
    ∃ item ∈ items, f item = .ok (some result) := by
  induction items generalizing results with
  | nil =>
      cases hresults
      cases hresult
  | cons item rest ih =>
      rw [List.filterMapM_cons] at hresults
      obtain ⟨one, hone, hresults⟩ := bind_eq_ok.1 hresults
      cases one with
      | none =>
          obtain ⟨other, hother, hfound⟩ := ih hresults hresult
          exact ⟨other, List.mem_cons_of_mem _ hother, hfound⟩
      | some first =>
          obtain ⟨others, hothers, hresults⟩ := bind_eq_ok.1 hresults
          cases hresults
          rcases List.mem_cons.1 hresult with rfl | hresult
          · exact ⟨item, List.mem_cons_self, hone⟩
          · obtain ⟨other, hother, hfound⟩ := ih hothers hresult
            exact ⟨other, List.mem_cons_of_mem _ hother, hfound⟩

/-- A walk that fails at a member fails, with the fault of the first such member. -/
theorem filterMapM_eq_error {α β : Type} {f : α → Except Fault (Option β)} {items : List α}
    (herror : ∃ item ∈ items, ∃ fault, f item = .error fault) :
    ∃ item ∈ items, ∃ fault, f item = .error fault ∧ items.filterMapM f = .error fault := by
  induction items with
  | nil =>
      obtain ⟨item, hitem, -⟩ := herror
      cases hitem
  | cons item rest ih =>
      rw [List.filterMapM_cons]
      cases hfirst : f item with
      | error fault => exact ⟨item, List.mem_cons_self, fault, hfirst, rfl⟩
      | ok one =>
          have hrest : ∃ other ∈ rest, ∃ fault, f other = .error fault := by
            obtain ⟨other, hother, fault, hfault⟩ := herror
            rcases List.mem_cons.1 hother with rfl | hother
            · rw [hfirst] at hfault
              cases hfault
            · exact ⟨other, hother, fault, hfault⟩
          obtain ⟨other, hother, fault, hfault, hwalk⟩ := ih hrest
          refine ⟨other, List.mem_cons_of_mem _ hother, fault, hfault, ?_⟩
          rw [hwalk]
          cases one with
          | none => rfl
          | some result => rfl

/-- Two walks over one list that pick related results at every member yield related lists. -/
theorem filterMapM_rel {α β γ : Type} {f : α → Except Fault (Option β)}
    {g : α → Except Fault (Option γ)} {related : β → γ → Prop} {items : List α} {first : List β}
    {second : List γ}
    (hitems : ∀ item ∈ items, ∀ one other, f item = .ok one → g item = .ok other →
      Option.Rel related one other)
    (hfirst : items.filterMapM f = .ok first) (hsecond : items.filterMapM g = .ok second) :
    List.Forall₂ related first second := by
  induction items generalizing first second with
  | nil =>
      cases hfirst
      cases hsecond
      exact .nil
  | cons item rest ih =>
      rw [List.filterMapM_cons] at hfirst hsecond
      obtain ⟨one, hone, hfirst⟩ := bind_eq_ok.1 hfirst
      obtain ⟨other, hother, hsecond⟩ := bind_eq_ok.1 hsecond
      have hrest := fun next hnext => hitems next (List.mem_cons_of_mem _ hnext)
      cases hitems item List.mem_cons_self one other hone hother with
      | none => exact ih hrest hfirst hsecond
      | some hrelated =>
          obtain ⟨firstRest, hfirstRest, hfirst⟩ := bind_eq_ok.1 hfirst
          obtain ⟨secondRest, hsecondRest, hsecond⟩ := bind_eq_ok.1 hsecond
          cases hfirst
          cases hsecond
          exact .cons hrelated (ih hrest hfirstRest hsecondRest)

theorem allM_eq_ok_true_iff {α : Type} {test : α → Except Fault Bool} {members : List α} :
    members.allM test = .ok true ↔ ∀ a ∈ members, test a = .ok true := by
  induction members with
  | nil => exact iff_of_true rfl (List.forall_mem_nil _)
  | cons a members ih =>
      rw [List.allM, bind_eq_ok, List.forall_mem_cons, ← ih]
      constructor
      · rintro ⟨passed, ha, hrest⟩
        cases passed with
        | true => exact ⟨ha, hrest⟩
        | false => cases hrest
      · rintro ⟨ha, hrest⟩
        exact ⟨true, ha, hrest⟩

/-- A test fails at a member only after it has come through all before it. -/
theorem allM_eq_error_iff {α : Type} {test : α → Except Fault Bool} {members : List α} {fault : Fault} :
    members.allM test = .error fault ↔
      ∃ front a rest, members = front ++ a :: rest ∧ test a = .error fault ∧ ∀ b ∈ front, test b = .ok true := by
  constructor
  · intro herror
    induction members with
    | nil => cases herror
    | cons a members ih =>
        rw [List.allM] at herror
        cases htest : test a with
        | error other =>
            rw [htest] at herror
            cases herror
            exact ⟨[], a, members, rfl, htest, List.forall_mem_nil _⟩
        | ok passed =>
            rw [htest] at herror
            cases passed with
            | false => cases herror
            | true =>
                obtain ⟨front, b, rest, rfl, hfault, hfront⟩ := ih herror
                exact ⟨a :: front, b, rest, rfl, hfault, List.forall_mem_cons.2 ⟨htest, hfront⟩⟩
  · rintro ⟨front, a, rest, rfl, hfault, hfront⟩
    induction front with
    | nil =>
        rw [List.nil_append, List.allM, hfault]
        rfl
    | cons b front ih =>
        obtain ⟨hb, hfront⟩ := List.forall_mem_cons.1 hfront
        rw [List.cons_append, List.allM, hb]
        exact ih hfront

/-- A walk fails with the fault of the first member that it fails at. -/
theorem mapM_eq_error {α β : Type} {f : α → Except Fault β} {front rest : List α} {a : α} {fault : Fault}
    (ha : f a = .error fault) (hfront : ∀ b ∈ front, ∃ result, f b = .ok result) :
    (front ++ a :: rest).mapM f = .error fault := by
  induction front with
  | nil =>
      rw [List.nil_append, List.mapM_cons, ha]
      rfl
  | cons b front ih =>
      obtain ⟨⟨result, hb⟩, hfront⟩ := List.forall_mem_cons.1 hfront
      rw [List.cons_append, List.mapM_cons, hb, ok_bind, ih hfront]
      rfl

end ProofDump
