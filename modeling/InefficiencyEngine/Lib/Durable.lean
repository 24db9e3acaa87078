import InefficiencyEngine.Lib.Loop

namespace InefficiencyEngine

/-!
# Programs that make durable writes and may raise

A program over a store reads the store, makes a sequence of writes that each take effect
at once, and ends normally with a value or by raising.  It is modelled by its *journal*:
the list of writes it makes from a given store, and its result.  A crash leaves a prefix
of the journal in the store, and so does an exception.

The judgement `Prog.Spec P m G Q` is a triple with a guarantee: run from a store with
`P`, the journal of `m` is a sequence of blocks each of which satisfies `G` in the store
it starts from, and a normal end with value `a` leaves a store with `Q a`.  An invariant
that every prefix of a guaranteed block keeps holds after every prefix of the journal
(`Along.invariant`), hence after a crash at any point.
-/

/-- A store and what one durable write does to it. -/
class Durable (S W : Type) where
  /-- The store after a write. -/
  commit : S → W → S

open Durable

variable {S W ε α β σ : Type} [Durable S W]

/-- The store after a list of writes. -/
def commitAll (s : S) (writes : List W) : S := writes.foldl commit s

@[simp] theorem commitAll_nil (s : S) : commitAll s ([] : List W) = s := rfl

@[simp] theorem commitAll_cons (s : S) (w : W) (ws : List W) :
    commitAll s (w :: ws) = commitAll (commit s w) ws := rfl

theorem commitAll_append (s : S) (ws ws' : List W) :
    commitAll s (ws ++ ws') = commitAll (commitAll s ws) ws' :=
  List.foldl_append

/-- A list of writes is a sequence of blocks, each satisfying `G` in the store it starts
    from. -/
inductive Along (G : S → List W → Prop) : S → List W → Prop
  | nil (s : S) : Along G s []
  | cons {s : S} {block rest : List W} (hblock : G s block)
      (hrest : Along G (commitAll s block) rest) : Along G s (block ++ rest)

namespace Along

variable {G G' : S → List W → Prop}

theorem single {s : S} {block : List W} (h : G s block) : Along G s block := by
  have h' := Along.cons h (Along.nil (G := G) (commitAll s block))
  rwa [List.append_nil] at h'

theorem append {s : S} {ws ws' : List W} (h : Along G s ws)
    (h' : Along G (commitAll s ws) ws') : Along G s (ws ++ ws') := by
  induction h with
  | nil s => exact h'
  | cons hblock _ ih =>
    rw [commitAll_append] at h'
    rw [List.append_assoc]
    exact Along.cons hblock (ih h')

theorem mono (h : ∀ s block, G s block → G' s block) {s : S} {ws : List W}
    (hws : Along G s ws) : Along G' s ws := by
  induction hws with
  | nil s => exact Along.nil s
  | cons hblock _ ih => exact Along.cons (h _ _ hblock) ih

/-- **Crash invariant.** What holds after every prefix of a guaranteed block holds after
    any number of the writes. -/
theorem invariant {I : S → Prop}
    (hstep : ∀ s block, I s → G s block → ∀ n, I (commitAll s (block.take n))) {s : S}
    {ws : List W} (hs : I s) (hws : Along G s ws) (n : ℕ) : I (commitAll s (ws.take n)) := by
  induction hws generalizing n with
  | nil s => simpa using hs
  | @cons s block rest hblock _ ih =>
    rw [List.take_append, commitAll_append]
    rcases Nat.lt_or_ge n block.length with hlt | hge
    · have hzero : n - block.length = 0 := by omega
      rw [hzero, List.take_zero]
      exact hstep s block hs hblock n
    · rw [List.take_of_length_le hge]
      have hall := hstep s block hs hblock block.length
      rw [List.take_length] at hall
      exact ih hall _

/-- Every write belongs to a block, which starts where the writes before it lead. -/
theorem getElem? {s : S} {ws : List W} (hws : Along G s ws) {k : ℕ} {w : W}
    (hk : ws[k]? = some w) :
    ∃ i j block rest, i + j = k ∧ G (commitAll s (ws.take i)) block ∧ ws.drop i = block ++ rest
      ∧ block[j]? = some w := by
  induction hws generalizing k with
  | nil s => cases hk
  | @cons s block rest hblock _ ih =>
    rcases Nat.lt_or_ge k block.length with hlt | hge
    · rw [List.getElem?_append_left hlt] at hk
      exact ⟨0, k, block, rest, Nat.zero_add k, hblock, rfl, hk⟩
    · rw [List.getElem?_append_right hge] at hk
      obtain ⟨i, j, block', rest', hij, hG, hdrop, hj⟩ := ih hk
      refine ⟨block.length + i, j, block', rest', by omega, ?_, ?_, hj⟩
      · rw [List.take_length_add_append, commitAll_append]
        exact hG
      · rw [List.drop_length_add_append, hdrop]

/-- A block after each of whose writes `I` holds, when it held before. -/
def Keeps (I : S → Prop) (s : S) (block : List W) : Prop :=
  I s → ∀ n, I (commitAll s (block.take n))

/-- **Kept invariant.** Along blocks that keep it, an invariant is never lost. -/
theorem keeps {I : S → Prop} {s : S} {ws : List W} (hws : Along (Keeps I) s ws) (hs : I s)
    (n : ℕ) : I (commitAll s (ws.take n)) :=
  hws.invariant (fun _ _ ht hblock => hblock ht) hs n

/-- What all writes satisfy, the writes of each block satisfy. -/
theorem and_forall {φ : W → Prop} {s : S} {ws : List W} (hws : Along G s ws)
    (hφ : ∀ w ∈ ws, φ w) : Along (fun s block => G s block ∧ ∀ w ∈ block, φ w) s ws := by
  induction hws with
  | nil s => exact Along.nil s
  | cons hblock _ ih =>
    exact Along.cons ⟨hblock, fun w hw => hφ w (List.mem_append_left _ hw)⟩
      (ih (fun w hw => hφ w (List.mem_append_right _ hw)))

omit [Durable S W] in
/-- The writes up to one of a block are those before the block and the block's own. -/
theorem take_of_drop {ws block rest : List W} {i j : ℕ} (h : ws.drop i = block ++ rest)
    (hj : j ≤ block.length) : ws.take (i + j) = ws.take i ++ block.take j := by
  rw [List.take_add, h, List.take_append_of_le_length hj]

end Along

/-! ### Programs -/

/-- A program: the writes it makes from a store, and how it ends. -/
def Prog (S W ε α : Type) : Type := S → List W × Except ε α

namespace Prog

/-- Run `f` after `m`, in the store `m` left; an exception of `m` ends both. -/
protected def bind (m : Prog S W ε α) (f : α → Prog S W ε β) : Prog S W ε β := fun s =>
  match (m s).2 with
  | .error e => ((m s).1, .error e)
  | .ok a =>
    ((m s).1 ++ (f a (commitAll s (m s).1)).1, (f a (commitAll s (m s).1)).2)

instance : Monad (Prog S W ε) where
  pure a := fun _ => ([], .ok a)
  bind := Prog.bind

/-- Read the store. -/
def get : Prog S W ε S := fun s => ([], .ok s)

/-- Make one write. -/
def write (w : W) : Prog S W ε Unit := fun _ => ([w], .ok ())

/-- End as a pure computation does. -/
def lift (x : Except ε α) : Prog S W ε α := fun _ => ([], x)

/-- Make a write if there is one. -/
def writeOption (w : Option W) : Prog S W ε Unit := fun _ => (w.toList, .ok ())

/-- Clean up after a program that raised, and raise the same again. -/
def onError (m : Prog S W ε α) (cleanup : Prog S W ε Unit) : Prog S W ε α := fun s =>
  match (m s).2 with
  | .ok _ => m s
  | .error e => ((m s).1 ++ (cleanup (commitAll s (m s).1)).1, .error e)

/-- The store after the program's writes. -/
def final (m : Prog S W ε α) (s : S) : S := commitAll s (m s).1

/-- The store that the program leaves when it stops after some of its writes, or after none of
    them is left to make. -/
def leaves (m : Prog S W ε α) (s : S) : Option ℕ → S
  | none => m.final s
  | some n => commitAll s ((m s).1.take n)

/-- What holds after any number of the writes holds wherever the program stops. -/
theorem leaves_invariant {m : Prog S W ε α} {s : S} {I : S → Prop}
    (h : ∀ n, I (commitAll s ((m s).1.take n))) (stop : Option ℕ) : I (m.leaves s stop) := by
  cases stop with
  | none =>
    have hall := h (m s).1.length
    rwa [List.take_length] at hall
  | some n => exact h n

@[simp] theorem run_pure (a : α) (s : S) : (pure a : Prog S W ε α) s = ([], .ok a) := rfl

@[simp] theorem run_get_bind (f : S → Prog S W ε β) (s : S) :
    ((get : Prog S W ε S) >>= f) s = f s s := rfl

omit [Durable S W] in
@[simp] theorem run_lift (x : Except ε α) (s : S) : (lift x : Prog S W ε α) s = ([], x) := rfl

@[simp] theorem run_lift_ok_bind (a : α) (f : α → Prog S W ε β) (s : S) :
    ((lift (.ok a) : Prog S W ε α) >>= f) s = f a s := rfl

/-- A program that ended normally hands over to the next one, in the store it left. -/
theorem run_bind_of_ok {m : Prog S W ε α} {f : α → Prog S W ε β} {s : S} {ws : List W} {a : α}
    (h : m s = (ws, .ok a)) :
    (m >>= f) s = (ws ++ (f a (commitAll s ws)).1, (f a (commitAll s ws)).2) := by
  show Prog.bind m f s = _
  rw [Prog.bind, h]

/-- After a program without a write the store is the same. -/
theorem run_bind_of_silent {m : Prog S W ε α} {f : α → Prog S W ε β} {s : S} {a : α}
    (h : m s = ([], .ok a)) : (m >>= f) s = f a s := by
  rw [run_bind_of_ok h]
  rfl

/-- A pure function of the result changes nothing else. -/
theorem run_bind_pure (m : Prog S W ε α) (f : α → β) (s : S) :
    (m >>= fun a => pure (f a)) s = ((m s).1, (m s).2.map f) := by
  show Prog.bind m _ s = _
  unfold Prog.bind
  cases (m s).2 with
  | error e => rfl
  | ok a => exact Prod.ext (List.append_nil _) rfl

/-! ### The judgement and its rules -/

/-- Run from a store with `P`, the journal is a sequence of blocks satisfying `G`, and a
    normal end with value `a` leaves a store with `Q a`. -/
structure Spec (P : S → Prop) (m : Prog S W ε α) (G : S → List W → Prop) (Q : α → S → Prop) :
    Prop where
  guarantee : ∀ s, P s → Along G s (m s).1
  post : ∀ s a, P s → (m s).2 = .ok a → Q a (m.final s)

variable {P P' : S → Prop} {G G' : S → List W → Prop} {m : Prog S W ε α} {Q Q' : α → S → Prop}

theorem Spec.weaken (h : Spec P m G Q) (hP : ∀ s, P' s → P s)
    (hG : ∀ s block, G s block → G' s block) (hQ : ∀ a s, Q a s → Q' a s) : Spec P' m G' Q' where
  guarantee s hs := (h.guarantee s (hP s hs)).mono hG
  post s a hs ha := hQ a _ (h.post s a (hP s hs) ha)

theorem Spec.pre (h : Spec P m G Q) (hP : ∀ s, P' s → P s) : Spec P' m G Q :=
  h.weaken hP (fun _ _ hw => hw) (fun _ _ hq => hq)

theorem Spec.conseq (h : Spec P m G Q) (hQ : ∀ a s, Q a s → Q' a s) : Spec P m G Q' :=
  h.weaken (fun _ hs => hs) (fun _ _ hw => hw) hQ

/-- A program whose whole journal is one block. -/
theorem spec_block (h : ∀ s, P s → G s (m s).1)
    (hpost : ∀ s a, P s → (m s).2 = .ok a → Q a (m.final s)) : Spec P m G Q :=
  ⟨fun s hs => Along.single (h s hs), hpost⟩

/-- A program that makes no write. -/
theorem spec_silent (h : ∀ s, P s → (m s).1 = [])
    (hpost : ∀ s a, P s → (m s).2 = .ok a → Q a s) : Spec P m G Q where
  guarantee s hs := by
    rw [h s hs]
    exact Along.nil s
  post s a hs ha := by
    rw [final, h s hs]
    exact hpost s a hs ha

/-- Nothing is known of a program, and nothing asked of it. -/
theorem spec_any (m : Prog S W ε α) : Spec P m (fun _ _ => True) (fun _ _ => True) :=
  spec_block (fun _ _ => trivial) (fun _ _ _ _ => trivial)

/-- A fact that does not depend on the store outlasts any program. -/
theorem spec_fact {φ : Prop} (m : Prog S W ε α) :
    Spec (fun _ => φ) m (fun _ _ => True) (fun _ _ => φ) :=
  spec_block (fun _ _ => trivial) (fun _ _ h _ => h)

/-- A pre-condition on the store may be proved from by cases. -/
theorem spec_of_forall (h : ∀ s₀, P s₀ → Spec (fun s => s = s₀) m G Q) : Spec P m G Q where
  guarantee s hs := (h s hs).guarantee s rfl
  post s a hs ha := (h s hs).post s a rfl ha

/-- A fact that does not depend on the store can be assumed of a program's pre-condition. -/
theorem spec_of_fact {φ : Prop} (h : φ → Spec P m G Q) : Spec (fun s => P s ∧ φ) m G Q where
  guarantee s hs := (h hs.2).guarantee s hs.1
  post s a hs ha := (h hs.2).post s a hs.1 ha

/-- A program run from a known store leaves a known store. -/
theorem Spec.from (h : Spec P m G Q) (s₀ : S) :
    Spec (fun s => s = s₀ ∧ P s₀) m G (fun a s => Q a s ∧ s = m.final s₀) where
  guarantee s hs := h.guarantee s (hs.1 ▸ hs.2)
  post s a hs ha := ⟨h.post s a (hs.1 ▸ hs.2) ha, by rw [hs.1]⟩

/-- Two specifications of one program give both post-conditions. -/
theorem Spec.and (h : Spec P m G Q) (h' : Spec P' m G' Q') :
    Spec (fun s => P s ∧ P' s) m G' (fun a s => Q a s ∧ Q' a s) where
  guarantee s hs := h'.guarantee s hs.2
  post s a hs ha := ⟨h.post s a hs.1 ha, h'.post s a hs.2 ha⟩

theorem spec_pure (a : α) : Spec (Q a) (pure a : Prog S W ε α) G Q where
  guarantee s _ := Along.nil s
  post s b hs hb := by
    injection hb with hb
    subst hb
    exact hs

theorem spec_get : Spec P (get : Prog S W ε S) G (fun a s => P s ∧ a = s) where
  guarantee s _ := Along.nil s
  post s b hs hb := by
    injection hb with hb
    subst hb
    exact ⟨hs, rfl⟩

theorem spec_lift (x : Except ε α) :
    Spec P (lift x : Prog S W ε α) G (fun a s => P s ∧ x = .ok a) where
  guarantee s _ := Along.nil s
  post _ _ hs ha := ⟨hs, ha⟩

theorem spec_raise (e : ε) : Spec P (lift (.error e) : Prog S W ε α) G Q where
  guarantee s _ := Along.nil s
  post _ _ _ ha := by cases ha

theorem spec_write {Q : Unit → S → Prop} (w : W) :
    Spec (fun s => G s [w] ∧ Q () (commit s w)) (write w : Prog S W ε Unit) G Q where
  guarantee _ hs := Along.single hs.1
  post _ _ hs _ := hs.2

/-- What reads the store first may be specified store by store. -/
theorem spec_get_bind {f : S → Prog S W ε β} {R : β → S → Prop}
    (h : ∀ s₀, P s₀ → Spec (fun s => s = s₀) (f s₀) G R) :
    Spec P ((get : Prog S W ε S) >>= f) G R where
  guarantee s hs := (h s hs).guarantee s rfl
  post s a hs ha := (h s hs).post s a rfl ha

/-- A write that keeps an invariant. -/
theorem spec_write_keeps {I : S → Prop} {w : W} (h : ∀ s, I s → I (commit s w)) :
    Spec I (write w : Prog S W ε Unit) (Along.Keeps I) (fun _ => I) := by
  refine ⟨fun s _ => Along.single (fun hs n => ?_), fun s _ hs _ => h s hs⟩
  cases n with
  | zero => exact hs
  | succ n =>
    show I (commitAll s ([w].take (n + 1)))
    simpa using h s hs

/-- A write that keeps an invariant where it is made, and leads to a post-condition. -/
theorem spec_write_at {I : S → Prop} {w : W} {Q : Unit → S → Prop}
    (h : ∀ s, P s → I (commit s w) ∧ Q () (commit s w)) :
    Spec P (write w : Prog S W ε Unit) (Along.Keeps I) Q := by
  refine ⟨fun s hs => Along.single (fun hkept n => ?_), fun s _ hs _ => (h s hs).2⟩
  cases n with
  | zero => exact hkept
  | succ n =>
    show I (commitAll s ([w].take (n + 1)))
    simpa using (h s hs).1

/-- A write that is made, if at all, where it keeps an invariant. -/
theorem spec_writeOption_at {I : S → Prop} {w : Option W} {Q : Unit → S → Prop}
    (hnone : w = none → ∀ s, P s → Q () s)
    (h : ∀ v ∈ w, ∀ s, P s → I (commit s v) ∧ Q () (commit s v)) :
    Spec P (writeOption w : Prog S W ε Unit) (Along.Keeps I) Q := by
  cases w with
  | none => exact spec_silent (fun _ _ => rfl) (fun s _ hs _ => hnone rfl s hs)
  | some v => exact spec_write_at (h v rfl)

/-- A write that keeps an invariant, if it is made at all. -/
theorem spec_writeOption_keeps {I : S → Prop} {w : Option W}
    (h : ∀ v ∈ w, ∀ s, I s → I (commit s v)) :
    Spec I (writeOption w : Prog S W ε Unit) (Along.Keeps I) (fun _ => I) := by
  cases w with
  | none => exact spec_silent (fun _ _ => rfl) (fun _ _ hs _ => hs)
  | some v => exact spec_write_keeps (h v rfl)

/-- **Sequencing.** The second program starts from what the first one leaves. -/
theorem spec_bind {f : α → Prog S W ε β} {R : β → S → Prop} (hm : Spec P m G Q)
    (hf : ∀ a, Spec (Q a) (f a) G R) : Spec P (m >>= f) G R := by
  have hbind : ∀ s, (m >>= f) s = Prog.bind m f s := fun _ => rfl
  constructor
  · intro s hs
    rw [hbind, Prog.bind]
    cases hres : (m s).2 with
    | error e => exact hm.guarantee s hs
    | ok a => exact (hm.guarantee s hs).append ((hf a).guarantee _ (hm.post s a hs hres))
  · intro s b hs hb
    rw [hbind, Prog.bind] at hb
    rw [final, hbind, Prog.bind]
    cases hres : (m s).2 with
    | error e =>
      rw [hres] at hb
      cases hb
    | ok a =>
      rw [hres] at hb
      dsimp only at hb ⊢
      rw [commitAll_append]
      exact (hf a).post _ b (hm.post s a hs hres) hb

/-- **Loop rule.** An invariant over the elements seen that every iteration keeps holds
    after the whole loop, and all blocks are guaranteed. -/
theorem spec_foldlM {step : σ → α → Prog S W ε σ} {J : List α → σ → S → Prop} {xs : List α}
    (hstep : ∀ seen x rest t, xs = seen ++ x :: rest →
      Spec (J seen t) (step t x) G (J (seen ++ [x]))) (t : σ) :
    Spec (J [] t) (xs.foldlM step t) G (J xs) := by
  suffices h : ∀ (rest seen : List α) (t : σ), xs = seen ++ rest →
      Spec (J seen t) (rest.foldlM step t) G (J (seen ++ rest)) by
    exact h xs [] t rfl
  intro rest
  induction rest with
  | nil =>
    intro seen t _
    rw [List.append_nil]
    exact spec_pure t
  | cons x rest ih =>
    intro seen t hxs
    rw [List.foldlM_cons, List.append_cons]
    exact spec_bind (hstep seen x rest t hxs)
      (fun t' => ih (seen ++ [x]) t' (by rw [hxs, List.append_cons]))

/-! ### How a program raises -/

/-- `Spec`, and a program that raises `e` leaves a store with `E e`. -/
structure Exits (P : S → Prop) (m : Prog S W ε α) (G : S → List W → Prop) (Q : α → S → Prop)
    (E : ε → S → Prop) : Prop extends Spec P m G Q where
  raised : ∀ s e, P s → (m s).2 = .error e → E e (m.final s)

section Exits

variable {P P' : S → Prop} {m : Prog S W ε α} {G G' : S → List W → Prop} {Q Q' : α → S → Prop}
variable {E E' : ε → S → Prop}

theorem Exits.weaken (h : Exits P m G Q E) (hP : ∀ s, P' s → P s)
    (hG : ∀ s block, G s block → G' s block) (hQ : ∀ a s, Q a s → Q' a s)
    (hE : ∀ e s, E e s → E' e s) : Exits P' m G' Q' E' where
  toSpec := h.toSpec.weaken hP hG hQ
  raised s e hs he := hE e _ (h.raised s e (hP s hs) he)

theorem Exits.pre (h : Exits P m G Q E) (hP : ∀ s, P' s → P s) : Exits P' m G Q E :=
  h.weaken hP (fun _ _ hG => hG) (fun _ _ hQ => hQ) (fun _ _ hE => hE)

theorem Exits.conseq (h : Exits P m G Q E) (hQ : ∀ a s, Q a s → Q' a s) : Exits P m G Q' E :=
  h.weaken (fun _ hP => hP) (fun _ _ hG => hG) hQ (fun _ _ hE => hE)

theorem exits_pure (a : α) : Exits (Q a) (pure a : Prog S W ε α) G Q E where
  toSpec := spec_pure a
  raised _ _ _ he := by cases he

theorem exits_write {Q : Unit → S → Prop} (w : W) :
    Exits (fun s => G s [w] ∧ Q () (commit s w)) (write w : Prog S W ε Unit) G Q E where
  toSpec := spec_write w
  raised _ _ _ he := by cases he

/-- A pure computation leaves the store, and raises what it raises. -/
theorem exits_lift (x : Except ε α) (hE : ∀ s e, P s → x = .error e → E e s) :
    Exits P (lift x : Prog S W ε α) G (fun a s => P s ∧ x = .ok a) E where
  toSpec := spec_lift x
  raised s e hs he := hE s e hs he

/-- An exception leaves the store. -/
theorem exits_raise (e : ε) (hE : ∀ s, P s → E e s) :
    Exits P (lift (.error e) : Prog S W ε α) G Q E where
  toSpec := spec_raise e
  raised s e' hs he := by
    injection he with he
    exact he ▸ hE s hs

/-- What reads the store first may be specified store by store. -/
theorem exits_get_bind {f : S → Prog S W ε β} {R : β → S → Prop}
    (h : ∀ s₀, P s₀ → Exits (fun s => s = s₀) (f s₀) G R E) :
    Exits P ((get : Prog S W ε S) >>= f) G R E where
  toSpec := spec_get_bind (fun s₀ hs => (h s₀ hs).toSpec)
  raised s e hs he := (h s hs).raised s e rfl he

/-- A pre-condition on the store may be proved from by cases. -/
theorem exits_of_forall (h : ∀ s₀, P s₀ → Exits (fun s => s = s₀) m G Q E) : Exits P m G Q E where
  toSpec := spec_of_forall (fun s₀ hs => (h s₀ hs).toSpec)
  raised s e hs he := (h s hs).raised s e rfl he

/-- **Sequencing.** Either program may raise. -/
theorem exits_bind {f : α → Prog S W ε β} {R : β → S → Prop} (hm : Exits P m G Q E)
    (hf : ∀ a, Exits (Q a) (f a) G R E) : Exits P (m >>= f) G R E where
  toSpec := spec_bind hm.toSpec (fun a => (hf a).toSpec)
  raised s e hs he := by
    have hbind : (m >>= f) s = Prog.bind m f s := rfl
    rw [hbind, Prog.bind] at he
    rw [final, hbind, Prog.bind]
    cases hres : (m s).2 with
    | error e' =>
      rw [hres] at he
      injection he with he
      subst he
      exact hm.raised s e' hs hres
    | ok a =>
      rw [hres] at he
      dsimp only at he ⊢
      rw [commitAll_append]
      exact (hf a).raised _ e (hm.post s a hs hres) he

/-- **Cleaning up.** The clean-up starts from what the program left when it raised. -/
theorem exits_onError {cleanup : Prog S W ε Unit} {φ : ε → Prop} (hm : Exits P m G Q E)
    (hcleanup : ∀ e, Spec (E e) cleanup G (fun _ _ => True)) (hφ : ∀ e s, E e s → φ e) :
    Exits P (onError m cleanup) G Q (fun e _ => φ e) := by
  refine ⟨⟨fun s hs => ?_, fun s a hs ha => ?_⟩, fun s e hs he => ?_⟩
  · rw [onError]
    cases hres : (m s).2 with
    | ok a => exact hm.guarantee s hs
    | error e =>
      exact (hm.guarantee s hs).append ((hcleanup e).guarantee _ (hm.raised s e hs hres))
  · rw [onError] at ha
    cases hres : (m s).2 with
    | ok b =>
      simp only [hres] at ha
      rw [final, onError]
      simp only [hres]
      exact hm.post s a hs (hres.trans ha)
    | error e =>
      simp only [hres] at ha
      cases ha
  · rw [onError] at he
    cases hres : (m s).2 with
    | ok b =>
      simp only [hres] at he
      cases he
    | error e' =>
      simp only [hres] at he
      injection he with he
      subst he
      exact hφ e' _ (hm.raised s e' hs hres)

/-- **Loop rule.** An invariant over the elements seen that every iteration keeps holds after
    the whole loop. -/
theorem exits_foldlM {step : σ → α → Prog S W ε σ} {J : List α → σ → S → Prop} {xs : List α}
    (hstep : ∀ seen x rest t, xs = seen ++ x :: rest →
      Exits (J seen t) (step t x) G (J (seen ++ [x])) E) (t : σ) :
    Exits (J [] t) (xs.foldlM step t) G (J xs) E := by
  suffices h : ∀ (rest seen : List α) (t : σ), xs = seen ++ rest →
      Exits (J seen t) (rest.foldlM step t) G (J (seen ++ rest)) E by
    exact h xs [] t rfl
  intro rest
  induction rest with
  | nil =>
    intro seen t _
    rw [List.append_nil]
    exact exits_pure t
  | cons x rest ih =>
    intro seen t hxs
    rw [List.foldlM_cons, List.append_cons]
    exact exits_bind (hstep seen x rest t hxs)
      (fun t' => ih (seen ++ [x]) t' (by rw [hxs, List.append_cons]))

end Exits

/-! ### The kinds of writes a program makes -/

/-- The writes of a sequence are those of its first program, and those of the second from
    what the first one left. -/
theorem run_bind (m : Prog S W ε α) (f : α → Prog S W ε β) (s : S) :
    ((m >>= f) s).1 = (m s).1 ++ (match (m s).2 with
      | .ok a => (f a (m.final s)).1
      | .error _ => []) := by
  show (Prog.bind m f s).1 = _
  unfold Prog.bind
  cases (m s).2 with
  | error e => exact (List.append_nil _).symm
  | ok a => rfl

/-- A sequence that ends normally is two programs that do. -/
theorem run_bind_eq_ok {m : Prog S W ε α} {f : α → Prog S W ε β} {s : S} {b : β}
    (h : ((m >>= f) s).2 = .ok b) :
    ∃ a, (m s).2 = .ok a ∧ (f a (m.final s)).2 = .ok b
      ∧ ((m >>= f) s).1 = (m s).1 ++ (f a (m.final s)).1 := by
  cases hres : (m s).2 with
  | error e =>
    have herror : ((m >>= f) s).2 = .error e := by
      show (Prog.bind m f s).2 = _
      rw [Prog.bind, hres]
    rw [herror] at h
    cases h
  | ok a =>
    have hrun : (m >>= f) s = _ := run_bind_of_ok (Prod.ext rfl hres)
    rw [hrun] at h ⊢
    exact ⟨a, rfl, h, rfl⟩

/-- Every write the program can make satisfies `φ`. -/
def Emits (φ : W → Prop) (m : Prog S W ε α) : Prop := ∀ s, ∀ w ∈ (m s).1, φ w

section Emits

variable {φ : W → Prop}

theorem emits_pure (a : α) : Emits φ (pure a : Prog S W ε α) := fun _ w hw => by cases hw

omit [Durable S W] in
theorem emits_get : Emits φ (get : Prog S W ε S) := fun _ w hw => by cases hw

omit [Durable S W] in
theorem emits_lift (x : Except ε α) : Emits φ (lift x : Prog S W ε α) := fun _ w hw => by cases hw

omit [Durable S W] in
theorem emits_write {w : W} (h : φ w) : Emits φ (write w : Prog S W ε Unit) := fun _ v hv => by
  rw [List.mem_singleton.mp hv]
  exact h

/-- The writes of each block are among those the program can make. -/
theorem Spec.emits {P : S → Prop} {G : S → List W → Prop} {Q : α → S → Prop} (h : Spec P m G Q)
    (hm : Emits φ m) : Spec P m (fun s block => G s block ∧ ∀ w ∈ block, φ w) Q where
  guarantee s hs := (h.guarantee s hs).and_forall (hm s)
  post := h.post

theorem emits_bind {f : α → Prog S W ε β} (hm : Emits φ m) (hf : ∀ a, Emits φ (f a)) :
    Emits φ (m >>= f) := by
  intro s w hw
  rw [run_bind, List.mem_append] at hw
  rcases hw with hw | hw
  · exact hm s w hw
  · cases hres : (m s).2 with
    | error e =>
      rw [hres] at hw
      cases hw
    | ok a =>
      rw [hres] at hw
      exact hf a _ w hw

/-- After a pure computation only its results matter. -/
theorem emits_lift_bind {x : Except ε α} {f : α → Prog S W ε β}
    (h : ∀ a, x = .ok a → Emits φ (f a)) : Emits φ ((lift x : Prog S W ε α) >>= f) := by
  cases x with
  | error e => exact fun s w hw => (by cases hw)
  | ok a => exact h a rfl

theorem emits_foldlM {step : σ → α → Prog S W ε σ} (h : ∀ t x, Emits φ (step t x)) (xs : List α)
    (t : σ) : Emits φ (xs.foldlM step t) := by
  induction xs generalizing t with
  | nil => exact emits_pure t
  | cons x rest ih =>
    rw [List.foldlM_cons]
    exact emits_bind (h t x) ih

end Emits

/-! ### Programs that never raise -/

/-- Run from any store, the program ends normally. -/
def Returns (m : Prog S W ε α) : Prop := ∀ s, ∃ a, (m s).2 = .ok a

theorem returns_pure (a : α) : Returns (pure a : Prog S W ε α) := fun _ => ⟨a, rfl⟩

omit [Durable S W] in
theorem returns_get : Returns (get : Prog S W ε S) := fun s => ⟨s, rfl⟩

omit [Durable S W] in
theorem returns_write (w : W) : Returns (write w : Prog S W ε Unit) := fun _ => ⟨(), rfl⟩

omit [Durable S W] in
theorem returns_writeOption (w : Option W) : Returns (writeOption w : Prog S W ε Unit) :=
  fun _ => ⟨(), rfl⟩

theorem returns_bind {f : α → Prog S W ε β} (hm : Returns m) (hf : ∀ a, Returns (f a)) :
    Returns (m >>= f) := by
  intro s
  obtain ⟨a, ha⟩ := hm s
  have hrun : (m >>= f) s = _ := run_bind_of_ok (Prod.ext rfl ha)
  rw [hrun]
  exact hf a _

/-- The post-condition of a program that never raises holds of the store it leaves. -/
theorem Spec.final_of_returns {P : S → Prop} {G : S → List W → Prop} {Q : S → Prop}
    (h : Spec P m G (fun _ => Q)) (hm : Returns m) {s : S} (hs : P s) : Q (m.final s) := by
  obtain ⟨a, ha⟩ := hm s
  exact h.post s a hs ha

end Prog

end InefficiencyEngine
