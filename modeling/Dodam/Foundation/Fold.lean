import Mathlib.Data.List.Forall2

/-! # Folds that may fail

Invariant rules for a left fold in `Except`. The invariant speaks about the
elements consumed so far, so a loop over a list is proved from one step.
-/
namespace Dodam.Foundation
universe u
variable {ε : Type*} {α β σ γ : Type u}

@[simp] theorem except_bind_ok {a : α} (f : α → Except ε β) : (Except.ok a >>= f) = f a := rfl
@[simp] theorem except_bind_error {e : ε} (f : α → Except ε β) :
    ((Except.error e : Except ε α) >>= f) = .error e := rfl
@[simp] theorem except_pure (a : α) : (pure a : Except ε α) = .ok a := rfl
@[simp] theorem except_map_ok (f : α → β) (a : α) : (f <$> (Except.ok a : Except ε α)) = .ok (f a) := rfl
@[simp] theorem except_map_error (f : α → β) (e : ε) :
    (f <$> (Except.error e : Except ε α)) = .error e := rfl

theorem except_bind_eq_ok {x : Except ε α} {f : α → Except ε β} {b : β} :
    (x >>= f) = .ok b ↔ ∃ a, x = .ok a ∧ f a = .ok b := by
  cases x with
  | error e => simp
  | ok a => simp

theorem except_map_eq_ok {x : Except ε α} {f : α → β} {b : β} :
    (f <$> x) = .ok b ↔ ∃ a, x = .ok a ∧ f a = b := by
  cases x with
  | error e => simp
  | ok a => simp

theorem bind_eq_ok_iff {α β ε : Type*} {x : Except ε α} {f : α → Except ε β} {b : β} :
    x.bind f = .ok b ↔ ∃ a, x = .ok a ∧ f a = .ok b := by
  cases x with
  | error e => exact ⟨nofun,fun ⟨_,h,_⟩ => nomatch h⟩
  | ok a => exact ⟨fun h => ⟨a,rfl,h⟩,fun ⟨_,h,hf⟩ => by cases h; exact hf⟩

theorem map_eq_ok_iff {α β ε : Type*} {x : Except ε α} {f : α → β} {b : β} :
    x.map f = .ok b ↔ ∃ a, x = .ok a ∧ f a = b := by
  cases x with
  | error e => exact ⟨nofun,fun ⟨_,h,_⟩ => nomatch h⟩
  | ok a => exact ⟨fun h => ⟨a,rfl,Except.ok.inj h⟩,fun ⟨_,h,hf⟩ => by cases h; exact congrArg Except.ok hf⟩

theorem except_cases (x : Except ε α) : (∃ a, x = .ok a) ∨ ∃ e, x = .error e := by
  cases x with
  | error e => exact Or.inr ⟨e,rfl⟩
  | ok a => exact Or.inl ⟨a,rfl⟩

variable {l : List α} {f : σ → α → Except ε σ}

theorem foldl_inv {f : σ → α → σ} (P : List α → σ → Prop) {s : σ} (hs : P [] s)
    (hstep : ∀ seen x rest s, l = seen ++ x :: rest → P seen s → P (seen ++ [x]) (f s x)) :
    P l (l.foldl f s) := by
  suffices h : ∀ (rest seen : List α) (s : σ), l = seen ++ rest → P seen s → P l (rest.foldl f s) from
    h l [] s rfl hs
  intro rest
  induction rest with
  | nil =>
    intro seen s hl hs
    rw [hl,List.append_nil]
    exact hs
  | cons x rest ih =>
    intro seen s hl hs
    exact ih (seen ++ [x]) (f s x) (by simpa using hl) (hstep seen x rest s hl hs)

theorem foldlM_ok_inv (P : List α → σ → Prop) {s t : σ}
    (hs : P [] s) (hstep : ∀ seen x s s', P seen s → f s x = .ok s' → P (seen ++ [x]) s')
    (ht : l.foldlM f s = .ok t) : P l t := by
  suffices h : ∀ (rest seen : List α) (s : σ), P seen s → rest.foldlM f s = .ok t → P (seen ++ rest) t by
    simpa using h l [] s hs ht
  intro rest
  induction rest with
  | nil =>
    intro seen s hs ht
    cases ht
    simpa using hs
  | cons x rest ih =>
    intro seen s hs ht
    rw [List.foldlM_cons,except_bind_eq_ok] at ht
    obtain ⟨s',hx,ht⟩ := ht
    simpa using ih (seen ++ [x]) s' (hstep seen x s s' hs hx) ht

theorem foldlM_total (P : List α → σ → Prop) {s : σ} (hs : P [] s)
    (hstep : ∀ seen x rest s, l = seen ++ x :: rest → P seen s →
      ∃ s', f s x = .ok s' ∧ P (seen ++ [x]) s') : ∃ t, l.foldlM f s = .ok t ∧ P l t := by
  suffices h : ∀ (rest seen : List α) (s : σ), l = seen ++ rest → P seen s →
      ∃ t, rest.foldlM f s = .ok t ∧ P l t from h l [] s rfl hs
  intro rest
  induction rest with
  | nil =>
    intro seen s hl hs
    refine ⟨s,rfl,?_⟩
    rw [hl,List.append_nil]
    exact hs
  | cons x rest ih =>
    intro seen s hl hs
    obtain ⟨s',hx,hs'⟩ := hstep seen x rest s hl hs
    obtain ⟨t,ht,hP⟩ := ih (seen ++ [x]) s' (by simpa using hl) hs'
    refine ⟨t,?_,hP⟩
    rw [List.foldlM_cons,hx]
    exact ht

theorem foldlM_error (P : σ → Prop)
    (hstep : ∀ s x s', P s → f s x = .ok s' → P s') {x : α} (hx : x ∈ l)
    (hf : ∀ s, P s → ∃ e, f s x = .error e) {s : σ} (hs : P s) : ∃ e, l.foldlM f s = .error e := by
  induction l generalizing s with
  | nil => simp at hx
  | cons y l ih =>
    rw [List.foldlM_cons]
    rcases except_cases (f s y) with ⟨s',h⟩ | ⟨e,h⟩
    · rcases List.mem_cons.mp hx with rfl | hx
      · obtain ⟨e,he⟩ := hf s hs
        rw [he] at h
        cases h
      · rw [h]
        exact ih hx (hstep s y s' hs h)
    · exact ⟨e,by rw [h]; rfl⟩

theorem foldlM_flatMap (f : σ → β → Except ε σ) (g : γ → List β) (l : List γ) (s : σ) :
    (l.flatMap g).foldlM f s = l.foldlM (fun s c => (g c).foldlM f s) s := by
  induction l generalizing s with
  | nil => rfl
  | cons c l ih =>
    rw [List.flatMap_cons,List.foldlM_append,List.foldlM_cons]
    cases (g c).foldlM f s with
    | error e => rfl
    | ok s' => exact ih s'

theorem foldlM_congr {g : σ → α → Except ε σ}
    (h : ∀ x ∈ l, ∀ s, f s x = g s x) (s : σ) : l.foldlM f s = l.foldlM g s := by
  induction l generalizing s with
  | nil => rfl
  | cons x l ih =>
    rw [List.foldlM_cons,List.foldlM_cons,h x List.mem_cons_self]
    congr 1
    funext s'
    exact ih (fun y hy => h y (List.mem_cons_of_mem _ hy)) s'

theorem foldlM_some {g : Option σ → α → Except ε (Option σ)}
    (h : ∀ x ∈ l, ∀ s, g (some s) x = some <$> f s x) (s : σ) :
    l.foldlM g (some s) = some <$> l.foldlM f s := by
  induction l generalizing s with
  | nil => rfl
  | cons x l ih =>
    rw [List.foldlM_cons,List.foldlM_cons,h x List.mem_cons_self]
    cases f s x with
    | error e => rfl
    | ok s' => exact ih (fun y hy => h y (List.mem_cons_of_mem _ hy)) s'

theorem mapM_eq_some_iff {α β : Type*} {f : α → Option β} {l : List α} {r : List β} :
    l.mapM f = some r ↔ List.Forall₂ (fun a b => f a = some b) l r := by
  induction l generalizing r with
  | nil =>
    rw [List.mapM_nil]
    constructor
    · intro h
      cases h
      exact .nil
    · intro h
      cases h
      rfl
  | cons a l ih =>
    rw [List.mapM_cons]
    constructor
    · intro h
      obtain ⟨b,hb,h⟩ := Option.bind_eq_some_iff.mp h
      obtain ⟨bs,hbs,h⟩ := Option.bind_eq_some_iff.mp h
      cases h
      exact .cons hb (ih.mp hbs)
    · intro h
      cases h with
      | cons hb hbs =>
        rw [hb,ih.mpr hbs]
        rfl

theorem exists_of_forall₂_left {α β : Type*} {R : α → β → Prop} {l : List α} {r : List β}
    (h : List.Forall₂ R l r) {a : α} (ha : a ∈ l) : ∃ b ∈ r, R a b := by
  induction h with
  | nil => simp at ha
  | cons hab _ ih =>
    rcases List.mem_cons.mp ha with rfl | ha
    · exact ⟨_,List.mem_cons_self,hab⟩
    · obtain ⟨b,hb,hr⟩ := ih ha
      exact ⟨b,List.mem_cons_of_mem _ hb,hr⟩

theorem exists_of_forall₂_right {α β : Type*} {R : α → β → Prop} {l : List α} {r : List β}
    (h : List.Forall₂ R l r) {b : β} (hb : b ∈ r) : ∃ a ∈ l, R a b := by
  obtain ⟨a,ha,hr⟩ := exists_of_forall₂_left h.flip hb
  exact ⟨a,ha,hr⟩

theorem forall₂_congr_mem {α β : Type*} {R S : α → β → Prop} {l : List α} {r : List β}
    (h : ∀ a ∈ l, ∀ b, R a b ↔ S a b) : List.Forall₂ R l r ↔ List.Forall₂ S l r := by
  have himp : ∀ {R S : α → β → Prop}, (∀ a ∈ l, ∀ b, R a b → S a b) → List.Forall₂ R l r → List.Forall₂ S l r := by
    intro R S h hr
    exact ((List.forall₂_and_left (p := fun a => a ∈ l) l r).mpr ⟨fun _ ha => ha,hr⟩).imp fun a b hab => h a hab.1 b hab.2
  exact ⟨himp fun a ha b => (h a ha b).mp,himp fun a ha b => (h a ha b).mpr⟩

theorem exists_map_some {α : Type*} {l : List (Option α)} (h : ∀ x ∈ l, x.isSome) :
    ∃ r : List α, l = r.map some := by
  induction l with
  | nil => exact ⟨[],rfl⟩
  | cons x l ih =>
    obtain ⟨a,rfl⟩ := Option.isSome_iff_exists.mp (h x List.mem_cons_self)
    obtain ⟨r,rfl⟩ := ih fun y hy => h y (List.mem_cons_of_mem _ hy)
    exact ⟨a :: r,rfl⟩

theorem mapM_id_map_some {α : Type*} (r : List α) : (r.map some).mapM id = some r := by
  rw [mapM_eq_some_iff,List.forall₂_map_left_iff,List.forall₂_same]
  exact fun a _ => rfl

theorem mapM_eq_some_map {α β : Type*} {f : α → Option β} {g : α → β} {l : List α} (h : ∀ a ∈ l, f a = some (g a)) :
    l.mapM f = some (l.map g) := by
  rw [mapM_eq_some_iff,List.forall₂_map_right_iff,List.forall₂_same]
  exact h

theorem flatten_toChunks (n : ℕ) (l : List α) : (l.toChunks n).flatten = l := by
  have hgo : ∀ (m : ℕ) (l : List α) (chunk : Array α) (done : Array (List α)),
      (List.toChunks.go m l chunk done).flatten = done.toList.flatten ++ (chunk.toList ++ l) := by
    intro m l
    induction l with
    | nil =>
      intro chunk done
      simp [List.toChunks.go]
    | cons x l ih =>
      intro chunk done
      unfold List.toChunks.go
      split_ifs
      · rw [ih]
        simp
      · rw [ih]
        simp
  cases l with
  | nil => simp [List.toChunks]
  | cons x l =>
    cases n with
    | zero => simp [List.toChunks]
    | succ n =>
      rw [List.toChunks,hgo]
      · rfl
      · simp

theorem mapM_ok_iff {α β : Type*} {f : α → Except ε β} {l : List α} {r : List β} :
    l.mapM f = .ok r ↔ List.Forall₂ (fun a b => f a = .ok b) l r := by
  induction l generalizing r with
  | nil =>
    rw [List.mapM_nil]
    constructor
    · intro h
      cases h
      exact .nil
    · intro h
      cases h
      rfl
  | cons a l ih =>
    rw [List.mapM_cons,except_bind_eq_ok]
    constructor
    · rintro ⟨b,hb,h⟩
      obtain ⟨r',hr',h⟩ := except_bind_eq_ok.mp h
      cases h
      exact .cons hb (ih.mp hr')
    · intro h
      cases h with
      | cons hb hr => exact ⟨_,hb,by rw [ih.mpr hr]; rfl⟩

theorem exists_mapM_ok {α β : Type*} {f : α → Except ε β} {l : List α} (h : ∀ a ∈ l, ∃ b, f a = .ok b) :
    ∃ r, l.mapM f = .ok r := by
  induction l with
  | nil => exact ⟨[],rfl⟩
  | cons a l ih =>
    obtain ⟨b,hb⟩ := h a List.mem_cons_self
    obtain ⟨r,hr⟩ := ih fun a' ha' => h a' (List.mem_cons_of_mem a ha')
    exact ⟨b :: r,mapM_ok_iff.mpr (.cons hb (mapM_ok_iff.mp hr))⟩

theorem mapM_eq_map {f : α → Except ε β} {g : α → β} (h : ∀ a ∈ l, f a = .ok (g a)) :
    l.mapM f = .ok (l.map g) := by
  induction l with
  | nil => rfl
  | cons a l ih =>
    rw [List.mapM_cons,h a List.mem_cons_self,except_bind_ok,
      ih fun b hb => h b (List.mem_cons_of_mem _ hb)]
    rfl

end Dodam.Foundation
