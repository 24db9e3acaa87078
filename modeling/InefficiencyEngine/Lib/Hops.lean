import InefficiencyEngine.Lib.Rungs

namespace InefficiencyEngine

/-!
# Chains of exchanges

A hop exchanges an amount above its dust for another: at no more than its best rate, for more
where more is given, and at a worse average rate for more, but for the dust it leaves.  A chain of
hops has the same laws, by induction on the chain: the best rate is the product of the best rates
(`Run.le`), the output rises with the input (`Run.mono`), and the average rate falls but for what
the hops leave (`Run.mul_le`).

A walk over a ladder of falling rates is a hop (`ofLadder`).
-/

/-- An exchange, with the laws of its rate. -/
structure Hop (K : Type) [Field K] [LinearOrder K] where
  dust : K
  best : K
  convert : K → K
  dust_nonneg : 0 ≤ dust
  best_pos : 0 < best
  convert_pos : ∀ {x}, dust < x → 0 < convert x
  convert_le : ∀ {x}, dust < x → convert x ≤ best * x
  convert_mono : ∀ {x y}, dust < x → x ≤ y → convert x ≤ convert y
  convert_mul_le : ∀ {x y}, dust < x → x ≤ y → convert y * (x - dust) ≤ convert x * y

namespace Hop

variable {K : Type} [Field K] [LinearOrder K]

/-! ### Chains -/

/-- A chain of hops from an amount to another, with what each hop is given. -/
inductive Run : List (Hop K) → K → List K → K → Prop
  | nil (x : K) : Run [] x [] x
  | cons {hop : Hop K} {hops : List (Hop K)} {x y : K} {xs : List K} (above : hop.dust < x)
      (rest : Run hops (hop.convert x) xs y) : Run (hop :: hops) x (x :: xs) y

/-- The best rate of a chain. -/
def bestRate (hops : List (Hop K)) : K := (hops.map Hop.best).prod

/-- The share of what they are given that the hops do not leave as dust. -/
def kept (hops : List (Hop K)) (xs : List K) : K :=
  (List.zipWith (fun (hop : Hop K) x => 1 - hop.dust / x) hops xs).prod

@[simp] theorem bestRate_nil : bestRate ([] : List (Hop K)) = 1 := rfl

@[simp] theorem bestRate_cons {hop : Hop K} {hops : List (Hop K)} :
    bestRate (hop :: hops) = hop.best * bestRate hops := by
  simp [bestRate]

@[simp] theorem kept_nil : kept ([] : List (Hop K)) [] = 1 := rfl

@[simp] theorem kept_cons {hop : Hop K} {hops : List (Hop K)} {x : K} {xs : List K} :
    kept (hop :: hops) (x :: xs) = (1 - hop.dust / x) * kept hops xs := by
  simp [kept]

variable [IsStrictOrderedRing K] {hops : List (Hop K)} {x x' y y' : K} {xs xs' : List K}

theorem bestRate_pos : 0 < bestRate hops := by
  induction hops with
  | nil => simp
  | cons hop rest ih =>
    rw [bestRate_cons]
    exact mul_pos hop.best_pos ih

omit [IsStrictOrderedRing K] in
/-- Something given is something got. -/
theorem Run.output_pos (h : Run hops x xs y) (hx : 0 < x) : 0 < y := by
  induction h with
  | nil _ => exact hx
  | @cons hop _ _ _ _ above _ ih => exact ih (hop.convert_pos above)

/-- What is kept is something. -/
theorem Run.kept_pos (h : Run hops x xs y) : 0 < kept hops xs := by
  induction h with
  | nil _ => simp
  | @cons hop _ x _ _ above _ ih =>
    have hx : 0 < x := lt_of_le_of_lt hop.dust_nonneg above
    rw [kept_cons]
    exact mul_pos (sub_pos.mpr ((div_lt_one hx).mpr above)) ih

/-- **Rate bound.** A chain yields no more than its best rate. -/
theorem Run.le (h : Run hops x xs y) : y ≤ bestRate hops * x := by
  induction h with
  | nil x => simp
  | @cons hop hops x y xs above _ ih =>
    rw [bestRate_cons]
    calc y ≤ bestRate hops * hop.convert x := ih
      _ ≤ bestRate hops * (hop.best * x) :=
        mul_le_mul_of_nonneg_left (hop.convert_le above) bestRate_pos.le
      _ = hop.best * bestRate hops * x := by ring

omit [IsStrictOrderedRing K] in
/-- **Monotonicity.** A chain yields no less for more. -/
theorem Run.mono (h : Run hops x xs y) (h' : Run hops x' xs' y') (hle : x ≤ x') : y ≤ y' := by
  induction h generalizing x' xs' with
  | nil _ =>
    cases h'
    exact hle
  | @cons hop _ _ _ _ above _ ih =>
    cases h' with
    | cons above' rest' => exact ih rest' (hop.convert_mono above hle)

/-- **Falling rates.** A chain yields no more on average for more, but for what its hops leave. -/
theorem Run.mul_le (h : Run hops x xs y) (h' : Run hops x' xs' y') (hx : 0 < x) (hle : x ≤ x') :
    y' * x * kept hops xs ≤ y * x' := by
  induction h generalizing x' xs' with
  | nil _ =>
    cases h'
    rw [kept_nil, mul_one, mul_comm]
  | @cons hop hops x y xs above rest ih =>
    cases h' with
    | cons above' rest' =>
      have hmid := hop.convert_pos above
      have hkept : 0 ≤ kept hops xs := rest.kept_pos.le
      have hy : 0 ≤ y := (rest.output_pos hmid).le
      have hrest := ih rest' hmid (hop.convert_mono above hle)
      have hfirst := hop.convert_mul_le above hle
      have hleft : x * (1 - hop.dust / x) = x - hop.dust := by
        rw [mul_sub, mul_one, mul_div_cancel₀ _ hx.ne']
      have hgiven : 0 ≤ x - hop.dust := sub_nonneg.mpr above.le
      rw [kept_cons]
      -- both averages, over what the first hop yields
      refine le_of_mul_le_mul_right ?_ hmid
      calc y' * x * ((1 - hop.dust / x) * kept hops xs) * hop.convert x
          = y' * hop.convert x * kept hops xs * (x * (1 - hop.dust / x)) := by ring
        _ = y' * hop.convert x * kept hops xs * (x - hop.dust) := by rw [hleft]
        _ ≤ y * hop.convert x' * (x - hop.dust) := mul_le_mul_of_nonneg_right hrest hgiven
        _ = y * (hop.convert x' * (x - hop.dust)) := by ring
        _ ≤ y * (hop.convert x * x') := mul_le_mul_of_nonneg_left hfirst hy
        _ = y * x' * hop.convert x := by ring

/-- **No gain.** There and back, where the best rates are worth no more than one. -/
theorem Run.no_gain {back : List (Hop K)} {z : K} {ys : List K} (h : Run hops x xs y)
    (hback : Run back y ys z) (hx : 0 < x) (hrates : bestRate hops * bestRate back ≤ 1) :
    z ≤ x := by
  calc z ≤ bestRate back * y := hback.le
    _ ≤ bestRate back * (bestRate hops * x) := mul_le_mul_of_nonneg_left h.le bestRate_pos.le
    _ = bestRate hops * bestRate back * x := by ring
    _ ≤ 1 * x := mul_le_mul_of_nonneg_right hrates hx.le
    _ = x := one_mul x

/-! ### Walks over ladders -/

variable {rungs : List (Rung K)} {dust best : K}

/-- A walk over a ladder of falling rates. -/
def ofLadder (rungs : List (Rung K)) (dust best : K) (hdust : 0 ≤ dust) (hbest : 0 < best)
    (hne : rungs ≠ []) (hsized : Rung.Sized rungs) (hrated : Rung.Rated rungs)
    (hfalling : Rung.Falling rungs) (hrate : ∀ r ∈ rungs, r.rate ≤ best) : Hop K where
  dust := dust
  best := best
  convert x := Rung.worth rungs (Rung.reach dust rungs x)
  dust_nonneg := hdust
  best_pos := hbest
  convert_pos {x} hx :=
    Rung.worth_pos hsized hrated (Rung.reach_pos hdust hsized hne hx)
      (Rung.reach_bounds hdust hsized (hdust.trans hx.le)).2.2
  convert_le {x} hx := by
    obtain ⟨hlow, hasked, hthere⟩ := Rung.reach_bounds hdust hsized (hdust.trans hx.le)
    have hgain := Rung.worth_sub_le hsized hrate (le_refl 0) hlow hthere
    rw [Rung.worth_zero hsized, sub_zero, sub_zero] at hgain
    exact hgain.trans (mul_le_mul_of_nonneg_left hasked hbest.le)
  convert_mono {x y} hx hle := by
    have hnonneg := hdust.trans hx.le
    exact Rung.worth_le_worth hsized (fun r hr => (hrated r hr).le)
      (Rung.reach_bounds hdust hsized hnonneg).1
      (Rung.reach_le_reach hdust hsized hnonneg hle)
      (Rung.reach_bounds hdust hsized (hnonneg.trans hle)).2.2
  convert_mul_le {x y} hx hle := by
    have hnonneg := hdust.trans hx.le
    obtain ⟨hlow, -, -⟩ := Rung.reach_bounds hdust hsized hnonneg
    obtain ⟨hlow', hasked', hthere'⟩ := Rung.reach_bounds hdust hsized (hnonneg.trans hle)
    have hreach := Rung.reach_le_reach hdust hsized hnonneg hle
    have hworth : ∀ {q}, 0 ≤ q → q ≤ Rung.depth rungs → 0 ≤ Rung.worth rungs q := by
      intro q hq hdepth
      have h := Rung.worth_le_worth hsized (fun r hr => (hrated r hr).le) (le_refl 0) hq hdepth
      rwa [Rung.worth_zero hsized] at h
    have hsome := hworth hlow' hthere'
    have hsome' := hworth hlow (hreach.trans hthere')
    rcases Rung.reach_spec hdust hsized hnonneg with hleft | hall
    · calc Rung.worth rungs (Rung.reach dust rungs y) * (x - dust)
          ≤ Rung.worth rungs (Rung.reach dust rungs y) * Rung.reach dust rungs x :=
            mul_le_mul_of_nonneg_left (by linarith) hsome
        _ ≤ Rung.worth rungs (Rung.reach dust rungs x) * Rung.reach dust rungs y :=
            hfalling.worth_mul_le hsized hlow hreach hthere'
        _ ≤ Rung.worth rungs (Rung.reach dust rungs x) * y :=
            mul_le_mul_of_nonneg_left hasked' hsome'
    · -- the ladder is used up by both
      have hall' : Rung.reach dust rungs y = Rung.reach dust rungs x :=
        le_antisymm (hthere'.trans hall.ge) hreach
      rw [hall']
      exact mul_le_mul_of_nonneg_left (by linarith) hsome'

end Hop

end InefficiencyEngine
