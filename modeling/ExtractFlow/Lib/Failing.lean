import Mathlib.Data.List.Forall2

/-!
# Computations that raise

Inversion and induction rules for `Except`: what a computation that returned did
on its way.  A `do` block that returned a value returned one at every bind, a
loop that returned kept every invariant of its body, and a `mapM` that returned
related the two lists element by element.

## Main results

* `Failing.bind_ok` — a bind that returned, taken apart.
* `Failing.foldlM_invariant`, `Failing.foldlM_processed` — the invariant rules of a loop.
* `Failing.foldlM_returns` — a loop whose turns return.
* `Failing.foldlM_error_iff` — the turn at which a loop raised.
* `Failing.foldlM_outcome` — a loop that may raise exceptions of some kind.
* `Failing.mapM_forall₂` — the elements of a `mapM`.
* `Failing.mapM_returns_of_alike` — a `mapM` whose turns do what those of another did.
* `Failing.map_of_mapM` — what every turn of a `mapM` preserves.
* `Failing.Alike`, `Failing.Alike.bind`, `Failing.mapM_alike` — two computations that fail
  alike or return related values, step by step.
-/

namespace Failing

universe u v

variable {ε : Type u} {α β : Type v}

/-- A bind returned exactly when both of its halves did: the first one some value, and the second
the result when given that value. -/
theorem bind_ok {x : Except ε α} {f : α → Except ε β} {b : β} :
    (x >>= f) = .ok b ↔ ∃ a, x = .ok a ∧ f a = .ok b := by
  cases x with
  | error e => simp [bind, Except.bind]
  | ok a => simp [bind, Except.bind]

/-- A computation that returned passes its value on. -/
theorem bind_of_ok {x : Except ε α} {f : α → Except ε β} {a : α} (h : x = .ok a) :
    (x >>= f) = f a := by
  rw [h]
  rfl

/-- A computation that raised ends the block. -/
theorem bind_of_error {x : Except ε α} {f : α → Except ε β} {e : ε} (h : x = .error e) :
    (x >>= f) = .error e := by
  rw [h]
  rfl

/-- A bind raised in its first half or in its second. -/
theorem bind_error {x : Except ε α} {f : α → Except ε β} {e : ε} :
    (x >>= f) = .error e ↔ x = .error e ∨ ∃ a, x = .ok a ∧ f a = .error e := by
  cases x with
  | error e' => simp [bind, Except.bind]
  | ok a => simp [bind, Except.bind]

/-- A map over the value of a computation that returned. -/
theorem map_ok {x : Except ε α} {f : α → β} {b : β} :
    Except.map f x = .ok b ↔ ∃ a, x = .ok a ∧ f a = b := by
  cases x with
  | error e => simp [Except.map]
  | ok a => simp [Except.map]

/-- What the body of a loop preserves whenever it returns, a loop that returned
preserves. -/
theorem foldlM_invariant {f : β → α → Except ε β} {I : β → Prop} : ∀ {xs : List α} {b c : β},
    (∀ x ∈ xs, ∀ b c, I b → f b x = .ok c → I c) → xs.foldlM f b = .ok c → I b → I c := by
  intro xs
  induction xs with
  | nil =>
    intro b c _ h hb
    obtain rfl : b = c := by simpa [pure, Except.pure] using h
    exact hb
  | cons x xs ih =>
    intro b c hstep h hb
    rw [List.foldlM_cons] at h
    obtain ⟨d, hd, hrest⟩ := bind_ok.mp h
    exact ih (fun y hy => hstep y (List.mem_cons_of_mem _ hy)) hrest
      (hstep x (List.mem_cons_self ..) b d hb hd)

/-- The rule of `foldlM_invariant` for a property that also sees the elements taken so
far, at an element with those before it and those after. -/
theorem foldlM_processed {f : β → α → Except ε β} {I : List α → β → Prop} {xs : List α}
    (hstep : ∀ seen x after, xs = seen ++ x :: after → ∀ b c, I seen b → f b x = .ok c →
      I (seen ++ [x]) c) :
    ∀ {b c : β}, xs.foldlM f b = .ok c → I [] b → I xs c := by
  suffices h : ∀ (rest seen : List α), xs = seen ++ rest → ∀ {b c : β}, rest.foldlM f b = .ok c →
      I seen b → I xs c by
    intro b c hloop hb
    exact h xs [] rfl hloop hb
  intro rest
  induction rest with
  | nil =>
    intro seen hxs b c h hb
    obtain rfl : b = c := by simpa [pure, Except.pure] using h
    rwa [hxs, List.append_nil]
  | cons x rest ih =>
    intro seen hxs b c h hb
    rw [List.foldlM_cons] at h
    obtain ⟨d, hd, hrest⟩ := bind_ok.mp h
    exact ih (seen ++ [x]) (by simpa using hxs) hrest (hstep seen x rest hxs b d hb hd)

/-- A loop returns when every turn does, under a property of the elements taken so far
and the state that the turns keep. -/
theorem foldlM_returns {f : β → α → Except ε β} {I : List α → β → Prop} {xs : List α}
    (hstep : ∀ seen x after, xs = seen ++ x :: after → ∀ b, I seen b →
      ∃ c, f b x = .ok c ∧ I (seen ++ [x]) c) :
    ∀ {b : β}, I [] b → ∃ c, xs.foldlM f b = .ok c ∧ I xs c := by
  suffices h : ∀ (rest seen : List α), xs = seen ++ rest → ∀ {b : β}, I seen b →
      ∃ c, rest.foldlM f b = .ok c ∧ I xs c by
    intro b hb
    exact h xs [] rfl hb
  intro rest
  induction rest with
  | nil =>
    intro seen hxs b hb
    rw [List.append_nil] at hxs
    exact ⟨b, rfl, hxs ▸ hb⟩
  | cons x rest ih =>
    intro seen hxs b hb
    obtain ⟨c, hc, hIc⟩ := hstep seen x rest hxs b hb
    obtain ⟨d, hd, hId⟩ := ih (seen ++ [x]) (by simpa using hxs) hIc
    refine ⟨d, ?_, hId⟩
    rw [List.foldlM_cons]
    exact bind_ok.mpr ⟨c, hc, hd⟩

/-- A loop raised exactly when one of its turns did, after the turns before it returned. -/
theorem foldlM_error_iff {f : β → α → Except ε β} : ∀ {xs : List α} {b : β} {e : ε},
    xs.foldlM f b = .error e ↔ ∃ before x after c, xs = before ++ x :: after ∧
      before.foldlM f b = .ok c ∧ f c x = .error e := by
  intro xs
  induction xs with
  | nil =>
    intro b e
    constructor
    · intro h
      cases h
    · rintro ⟨before, x, after, c, hxs, -⟩
      simp at hxs
  | cons y xs ih =>
    intro b e
    rw [List.foldlM_cons, bind_error]
    constructor
    -- the first turn raised, or it returned and a later one did
    · rintro (hy | ⟨c, hc, hrest⟩)
      · exact ⟨[], y, xs, b, rfl, rfl, hy⟩
      · obtain ⟨before, x, after, d, rfl, hbefore, hx⟩ := ih.mp hrest
        exact ⟨y :: before, x, after, d, rfl, by rw [List.foldlM_cons, bind_of_ok hc, hbefore], hx⟩
    · rintro ⟨before, x, after, c, hxs, hbefore, hx⟩
      -- the turns before the one that raised start with the first, if there are any
      cases before with
      | nil =>
        obtain ⟨rfl, rfl⟩ := List.cons.inj hxs
        obtain rfl : b = c := by simpa [pure, Except.pure] using hbefore
        exact Or.inl hx
      | cons z before =>
        obtain ⟨rfl, rfl⟩ := List.cons.inj hxs
        rw [List.foldlM_cons] at hbefore
        obtain ⟨d, hd, hbefore⟩ := bind_ok.mp hbefore
        exact Or.inr ⟨d, hd, ih.mpr ⟨before, x, after, c, rfl, hbefore, hx⟩⟩

/-- A loop that raised raised at some turn. -/
theorem exists_of_foldlM_error {f : β → α → Except ε β} {xs : List α} {b : β} {e : ε}
    (h : xs.foldlM f b = .error e) : ∃ x ∈ xs, ∃ c, f c x = .error e := by
  obtain ⟨before, x, after, c, rfl, -, hx⟩ := foldlM_error_iff.mp h
  exact ⟨x, by simp, c, hx⟩

/-- How a loop ends, when every turn keeps a property of the state or raises an exception
of some kind. -/
theorem foldlM_outcome {f : β → α → Except ε β} {I : β → Prop} {E : ε → Prop} : ∀ {xs : List α},
    (∀ x ∈ xs, ∀ b, I b → (∃ c, f b x = .ok c ∧ I c) ∨ ∃ e, f b x = .error e ∧ E e) →
    ∀ {b : β}, I b →
      (∃ c, xs.foldlM f b = .ok c ∧ I c) ∨ ∃ e, xs.foldlM f b = .error e ∧ E e := by
  intro xs
  induction xs with
  | nil => exact fun _ b hb => .inl ⟨b, rfl, hb⟩
  | cons x xs ih =>
    intro hstep b hb
    rw [List.foldlM_cons]
    rcases hstep x List.mem_cons_self b hb with ⟨c, hc, hIc⟩ | ⟨e, he, hEe⟩
    · rw [bind_of_ok hc]
      exact ih (fun y hy => hstep y (List.mem_cons_of_mem _ hy)) hIc
    · exact .inr ⟨e, bind_of_error he, hEe⟩

/-- A `forM` that returned returned at every element. -/
theorem forM_ok {f : α → Except ε PUnit} : ∀ {xs : List α}, xs.forM f = .ok ⟨⟩ →
    ∀ x ∈ xs, f x = .ok ⟨⟩ := by
  intro xs
  induction xs with
  | nil => intro _ x hx; simp at hx
  | cons y ys ih =>
    intro h x hx
    obtain ⟨⟨⟩, hy, hys⟩ := bind_ok.mp h
    rcases List.mem_cons.mp hx with rfl | hx
    · exact hy
    · exact ih hys x hx

/-- A `mapM` of a function that returns is a `map`. -/
theorem mapM_of_forall {f : α → Except ε β} {g : α → β} : ∀ {xs : List α},
    (∀ x ∈ xs, f x = .ok (g x)) → xs.mapM f = .ok (xs.map g) := by
  intro xs
  induction xs with
  | nil => intro _; rfl
  | cons x xs ih =>
    intro h
    obtain ⟨hx, hxs⟩ := List.forall_mem_cons.mp h
    rw [List.mapM_cons, hx, ih hxs]
    rfl

/-- A `mapM` that returned took every element to its image: the two lists have the same length, and
each element is related to the one in its place. -/
theorem mapM_forall₂ {f : α → Except ε β} : ∀ {xs : List α} {ys : List β},
    xs.mapM f = .ok ys → List.Forall₂ (fun x y => f x = .ok y) xs ys := by
  intro xs
  induction xs with
  | nil =>
    intro ys h
    obtain rfl : [] = ys := by simpa [pure, Except.pure] using h
    exact .nil
  | cons x xs ih =>
    intro ys h
    rw [List.mapM_cons] at h
    obtain ⟨y, hy, h⟩ := bind_ok.mp h
    obtain ⟨zs, hzs, h⟩ := bind_ok.mp h
    obtain rfl : y :: zs = ys := by simpa [pure, Except.pure] using h
    exact .cons hy (ih hzs)

/-- A `mapM` that returned returned at every element. -/
theorem exists_of_mapM_ok {f : α → Except ε β} {xs : List α} {ys : List β}
    (h : xs.mapM f = .ok ys) : ∀ x ∈ xs, ∃ y, f x = .ok y := by
  intro x hx
  have hall := mapM_forall₂ h
  clear h
  induction hall with
  | nil => cases hx
  | @cons x' y xs ys hxy _ ih =>
    rcases List.mem_cons.mp hx with rfl | hx
    · exact ⟨y, hxy⟩
    · exact ih hx

/-- A `mapM` that raised did so at one of its elements. -/
theorem exists_of_mapM_error {f : α → Except ε β} : ∀ {xs : List α} {e : ε},
    xs.mapM f = .error e → ∃ x ∈ xs, f x = .error e := by
  intro xs
  induction xs with
  | nil => intro e h; cases h
  | cons x xs ih =>
    intro e h
    rw [List.mapM_cons] at h
    rcases bind_error.mp h with h | ⟨y, -, h⟩
    · exact ⟨x, List.mem_cons_self .., h⟩
    · rcases bind_error.mp h with h | ⟨ys, -, h⟩
      · obtain ⟨x', hx', hf⟩ := ih h
        exact ⟨x', List.mem_cons_of_mem _ hx', hf⟩
      · cases h

/-- A `mapM` returns exactly when the function returns on every item. -/
theorem mapM_returns_iff {f : α → Except ε β} {xs : List α} :
    (∃ ys, xs.mapM f = .ok ys) ↔ ∀ x ∈ xs, ∃ y, f x = .ok y := by
  constructor
  · rintro ⟨ys, h⟩
    exact exists_of_mapM_ok h
  · intro h
    cases hmap : xs.mapM f with
    | ok ys => exact ⟨ys, rfl⟩
    | error e =>
      obtain ⟨x, hx, he⟩ := exists_of_mapM_error hmap
      obtain ⟨y, hy⟩ := h x hx
      rw [hy] at he
      cases he

/-- A `mapM` returns when every turn does what a turn of a `mapM` that returned does, up
to an observation. -/
theorem mapM_returns_of_alike {γ : Type v} {f f' : α → Except ε β} (g : β → γ) {xs xs' : List α}
    {ys : List β} (hturn : ∀ x' ∈ xs', ∃ x ∈ xs, (f' x').map g = (f x).map g)
    (h : xs.mapM f = .ok ys) : ∃ ys', xs'.mapM f' = .ok ys' := by
  cases h' : xs'.mapM f' with
  | ok ys' => exact ⟨ys', rfl⟩
  | error e =>
    obtain ⟨x', hx', he⟩ := exists_of_mapM_error h'
    obtain ⟨x, hx, halike⟩ := hturn x' hx'
    obtain ⟨y, hy⟩ := exists_of_mapM_ok h x hx
    rw [he, hy] at halike
    cases halike

/-- What every turn of a `mapM` that returned preserves, its lists have in common. -/
theorem map_of_mapM {γ : Type*} {f : α → Except ε β} {g : β → γ} {k : α → γ}
    (hturn : ∀ x y, f x = .ok y → g y = k x) {xs : List α} {ys : List β}
    (h : xs.mapM f = .ok ys) : ys.map g = xs.map k := by
  have hall := mapM_forall₂ h
  clear h
  induction hall with
  | nil => rfl
  | cons hxy _ ih => rw [List.map_cons, List.map_cons, hturn _ _ hxy, ih]

/-! ### Two computations side by side -/

/-- Two computations run alike: both raise the same exception, or both return, and the values they
return are related by `R`. -/
inductive Alike {α β : Type*} (R : α → β → Prop) : Except ε α → Except ε β → Prop
  | ok {a : α} {b : β} : R a b → Alike R (.ok a) (.ok b)
  | error (e : ε) : Alike R (.error e) (.error e)

/-- A computation is like itself. -/
theorem Alike.refl {α : Type*} {R : α → α → Prop} (hR : ∀ a, R a a) (x : Except ε α) :
    Alike R x x := by
  cases x with
  | ok a => exact .ok (hR a)
  | error e => exact .error e

/-- What the first returns, the second returns a relative of. -/
theorem Alike.returns {α β : Type*} {R : α → β → Prop} {x : Except ε α} {y : Except ε β} {a : α}
    (h : Alike R x y) (hx : x = .ok a) : ∃ b, y = .ok b ∧ R a b := by
  cases h with
  | ok hab => exact ⟨_, rfl, Except.ok.inj hx ▸ hab⟩
  | error => cases hx

/-- What the second returns, the first returns a relative of. -/
theorem Alike.returned {α β : Type*} {R : α → β → Prop} {x : Except ε α} {y : Except ε β} {b : β}
    (h : Alike R x y) (hy : y = .ok b) : ∃ a, x = .ok a ∧ R a b := by
  cases h with
  | ok hab => exact ⟨_, rfl, Except.ok.inj hy ▸ hab⟩
  | error => cases hy

/-- They raise together. -/
theorem Alike.raises {α β : Type*} {R : α → β → Prop} {x : Except ε α} {y : Except ε β} {e : ε}
    (h : Alike R x y) (hx : x = .error e) : y = .error e := by
  cases h with
  | ok => cases hx
  | error => rw [Except.error.inj hx]

section Binds

variable {α' β' : Type v}

/-- Blocks run alike when their first halves do and their second halves do from related values. -/
theorem Alike.bind {R : α → α' → Prop} {S : β → β' → Prop} {x : Except ε α} {x' : Except ε α'}
    {f : α → Except ε β} {f' : α' → Except ε β'} (h : Alike R x x')
    (hrest : ∀ a a', R a a' → Alike S (f a) (f' a')) : Alike S (x >>= f) (x' >>= f') := by
  cases h with
  | ok haa' => exact hrest _ _ haa'
  | error e => exact .error e

/-- Two loops over one list whose turns go alike: both raise at the same element, or both return
lists related element by element. -/
theorem mapM_alike {γ : Type*} {R : β → β' → Prop} {f : γ → Except ε β} {f' : γ → Except ε β'} :
    ∀ {xs : List γ}, (∀ x ∈ xs, Alike R (f x) (f' x)) →
      Alike (List.Forall₂ R) (xs.mapM f) (xs.mapM f') := by
  intro xs
  induction xs with
  | nil => exact fun _ => .ok .nil
  | cons x xs ih =>
    intro hturn
    rw [List.mapM_cons, List.mapM_cons]
    refine (hturn x (List.mem_cons_self ..)).bind fun y y' hy => ?_
    refine (ih fun z hz => hturn z (List.mem_cons_of_mem _ hz)).bind fun ys ys' hys => ?_
    exact .ok (.cons hy hys)

end Binds

end Failing
