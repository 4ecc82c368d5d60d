import Voidwalk.Library.CountingReader

/-!
Two counting readers side by side. `Alike` is the judgement that they draw the same
symbols, each behind what it has drawn before, and end alike.
-/

namespace Voidwalk.Library.TwoReaders

open Voidwalk.Library.CountingReader

variable {β ε α α' α₁ α₁' α₂ α₂' σ σ' τ : Type} {limit : Nat}

/-- Both have drawn the same symbols since, which the first source supplies. -/
def Further (source : Source β ε) (consumed consumed' later later' : Consumed β limit) : Prop :=
  ∃ drawn : List β, later.symbols = consumed.symbols ++ drawn ∧
    later'.symbols = consumed'.symbols ++ drawn ∧ Supplies source consumed.length drawn

/-- Two outcomes of the same kind, behind the same symbols. A reader that started further
on may have reached the limit alone. -/
inductive Matched (source : Source β ε) (consumed consumed' : Consumed β limit)
    (R : α → α' → Prop) :
    EStateM.Result (Stop ε) (Consumed β limit) α →
    EStateM.Result (Stop ε) (Consumed β limit) α' → Prop where
  | ok {value : α} {value' : α'} {later later' : Consumed β limit}
      (hfurther : Further source consumed consumed' later later') (hvalue : R value value') :
      Matched source consumed consumed' R (.ok value later) (.ok value' later')
  | error {stop : Stop ε} {later later' : Consumed β limit}
      (hfurther : Further source consumed consumed' later later') :
      Matched source consumed consumed' R (.error stop later) (.error stop later')
  | beyond {outcome : EStateM.Result (Stop ε) (Consumed β limit) α} {later' : Consumed β limit}
      (hlt : consumed.length < consumed'.length) :
      Matched source consumed consumed' R outcome (.error .limitReached later')

/-- From here on the two sources supply the same, up to the first failure. -/
def SameAhead (source source' : Source β ε) (consumed consumed' : Consumed β limit) : Prop :=
  ∀ i, (∀ j < i, ∃ symbol, source (consumed.length + j) = .ok symbol) →
    source (consumed.length + i) = source' (consumed'.length + i)

structure Alike (source source' : Source β ε) (consumed consumed' : Consumed β limit)
    (reader : Reader β limit ε α) (reader' : Reader β limit ε α') (R : α → α' → Prop) : Prop where
  matched : SameAhead source source' consumed consumed' → consumed.length ≤ consumed'.length →
    Matched source consumed consumed' R (reader consumed) (reader' consumed')

section Rules

variable {source source' : Source β ε} {consumed consumed' later later' : Consumed β limit}

theorem Further.refl : Further source consumed consumed' consumed consumed' :=
  ⟨[], (List.append_nil _).symm, (List.append_nil _).symm, Supplies.nil⟩

theorem Further.trans {last last' : Consumed β limit} (h : Further source consumed consumed' later later')
    (h' : Further source later later' last last') : Further source consumed consumed' last last' := by
  obtain ⟨drawn, hlater, hlater', hdrawn⟩ := h
  obtain ⟨more, hlast, hlast', hmore⟩ := h'
  refine ⟨drawn ++ more, ?_, ?_, ?_⟩
  · rw [hlast, hlater, List.append_assoc]
  · rw [hlast', hlater', List.append_assoc]
  · rw [Consumed.length, hlater, List.length_append] at hmore
    exact hdrawn.append hmore

theorem Further.length (h : Further source consumed consumed' later later') :
    ∃ n, later.length = consumed.length + n ∧ later'.length = consumed'.length + n := by
  obtain ⟨drawn, hlater, hlater', -⟩ := h
  refine ⟨drawn.length, ?_, ?_⟩
  · rw [Consumed.length, hlater, List.length_append]
  · rw [Consumed.length, hlater', List.length_append]

theorem Matched.mono {R Q : α → α' → Prop}
    {outcome : EStateM.Result (Stop ε) (Consumed β limit) α}
    {outcome' : EStateM.Result (Stop ε) (Consumed β limit) α'}
    (h : Matched source consumed consumed' R outcome outcome')
    (himp : ∀ value value', R value value' → Q value value') :
    Matched source consumed consumed' Q outcome outcome' := by
  cases h with
  | ok hfurther hvalue => exact .ok hfurther (himp _ _ hvalue)
  | error hfurther => exact .error hfurther
  | beyond hlt => exact .beyond hlt

theorem Matched.further {R : α → α' → Prop}
    {outcome : EStateM.Result (Stop ε) (Consumed β limit) α}
    {outcome' : EStateM.Result (Stop ε) (Consumed β limit) α'}
    (h : Matched source later later' R outcome outcome')
    (hfurther : Further source consumed consumed' later later') :
    Matched source consumed consumed' R outcome outcome' := by
  cases h with
  | ok hlast hvalue => exact .ok (hfurther.trans hlast) hvalue
  | error hlast => exact .error (hfurther.trans hlast)
  | beyond hlt =>
      obtain ⟨n, hlength, hlength'⟩ := hfurther.length
      exact .beyond (by omega)

theorem SameAhead.further (h : SameAhead source source' consumed consumed')
    (hfurther : Further source consumed consumed' later later') :
    SameAhead source source' later later' := by
  obtain ⟨drawn, hlater, hlater', hdrawn⟩ := hfurther
  rw [SameAhead]
  simp only [Consumed.length, hlater, hlater', List.length_append, Nat.add_assoc]
  intro i hbefore
  apply h
  intro j hj
  by_cases hold : j < drawn.length
  · exact ⟨drawn[j], hdrawn j _ (List.getElem?_eq_getElem hold)⟩
  · obtain ⟨symbol, hsymbol⟩ := hbefore (j - drawn.length) (by omega)
    rw [Nat.add_sub_of_le (Nat.not_lt.mp hold)] at hsymbol
    exact ⟨symbol, hsymbol⟩

theorem Alike.pure {value : α} {value' : α'} {R : α → α' → Prop} (h : R value value') :
    Alike source source' consumed consumed' (Pure.pure value) (Pure.pure value') R :=
  ⟨fun _ _ => .ok Further.refl h⟩

theorem Alike.attempt {result : Except ε α} {R : α → α → Prop} (hR : ∀ value, R value value) :
    Alike source source' consumed consumed' (attempt result) (CountingReader.attempt result) R := by
  refine ⟨fun _ _ => ?_⟩
  cases result with
  | error error => exact .error Further.refl
  | ok value => exact .ok Further.refl (hR value)

theorem Alike.get :
    Alike source source' consumed consumed' (get : Reader β limit ε (Consumed β limit)) get
      fun value value' => value = consumed ∧ value' = consumed' :=
  ⟨fun _ _ => .ok Further.refl ⟨rfl, rfl⟩⟩

theorem Alike.next :
    Alike source source' consumed consumed' (next source) (next source') Eq := by
  refine ⟨fun hahead hle => ?_⟩
  have hsame : source consumed.length = source' consumed'.length :=
    hahead 0 (by simp)
  by_cases hlimit' : consumed'.length < limit
  · have hlimit : consumed.length < limit := Nat.lt_of_le_of_lt hle hlimit'
    cases hsymbol : source consumed.length with
    | error error =>
        rw [next_of_error hlimit hsymbol, next_of_error hlimit' (hsame ▸ hsymbol)]
        exact .error Further.refl
    | ok symbol =>
        rw [next_of_ok hlimit hsymbol, next_of_ok hlimit' (hsame ▸ hsymbol)]
        exact .ok ⟨[symbol], rfl, rfl, Supplies.singleton hsymbol⟩ rfl
  · rw [next_of_limit hlimit']
    rcases Nat.lt_or_eq_of_le hle with hlt | heq
    · exact .beyond hlt
    · rw [next_of_limit (heq ▸ hlimit')]
      exact .error Further.refl

theorem Alike.peek :
    Alike source source' consumed consumed' (peek source) (peek source') Eq := by
  refine ⟨fun hahead _ => ?_⟩
  have hsame : source consumed.length = source' consumed'.length :=
    hahead 0 (by simp)
  rw [CountingReader.peek, CountingReader.peek, hsame]
  cases source' consumed'.length with
  | error error => exact .error Further.refl
  | ok symbol => exact .ok Further.refl rfl

theorem Alike.mono {reader : Reader β limit ε α} {reader' : Reader β limit ε α'}
    {R Q : α → α' → Prop} (h : Alike source source' consumed consumed' reader reader' R)
    (himp : ∀ value value', R value value' → Q value value') :
    Alike source source' consumed consumed' reader reader' Q :=
  ⟨fun hahead hle => (h.matched hahead hle).mono himp⟩

theorem Alike.bind {reader : Reader β limit ε α₁} {reader' : Reader β limit ε α₁'}
    {rest : α₁ → Reader β limit ε α₂} {rest' : α₁' → Reader β limit ε α₂'}
    {R : α₁ → α₁' → Prop} {Q : α₂ → α₂' → Prop}
    (hreader : Alike source source' consumed consumed' reader reader' R)
    (hrest : ∀ value value' later later', Further source consumed consumed' later later' →
      R value value' → Alike source source' later later' (rest value) (rest' value') Q) :
    Alike source source' consumed consumed' (reader >>= rest) (reader' >>= rest') Q := by
  refine ⟨fun hahead hle => ?_⟩
  have hfirst := hreader.matched hahead hle
  generalize hrun : reader consumed = outcome at hfirst
  generalize hrun' : reader' consumed' = outcome' at hfirst
  cases hfirst with
  | error hfurther =>
      rw [bind_of_error hrun, bind_of_error hrun']
      exact .error hfurther
  | beyond hlt =>
      rw [bind_of_error hrun']
      exact .beyond hlt
  | @ok value value' later later' hfurther hvalue =>
      obtain ⟨n, hlength, hlength'⟩ := hfurther.length
      rw [bind_of_ok hrun, bind_of_ok hrun']
      have hlast := (hrest value value' later later' hfurther hvalue).matched
        (hahead.further hfurther) (by omega)
      exact hlast.further hfurther

/-- Both readers take the same branch. -/
theorem Alike.ite {c c' : Prop} [Decidable c] [Decidable c'] (hiff : c ↔ c')
    {first second : Reader β limit ε α} {first' second' : Reader β limit ε α'}
    {R : α → α' → Prop}
    (hfirst : c → Alike source source' consumed consumed' first first' R)
    (hsecond : ¬ c → Alike source source' consumed consumed' second second' R) :
    Alike source source' consumed consumed' (if c then first else second)
      (if c' then first' else second') R := by
  by_cases hc : c
  · rw [if_pos hc, if_pos (hiff.mp hc)]
    exact hfirst hc
  · rw [if_neg hc, if_neg (mt hiff.mpr hc)]
    exact hsecond hc

theorem Alike.foldlM {f : σ → τ → Reader β limit ε σ} {f' : σ' → τ → Reader β limit ε σ'}
    {R : σ → σ' → Prop} {values : List τ}
    (hf : ∀ value ∈ values, ∀ state state' later later',
      Further source consumed consumed' later later' → R state state' →
        Alike source source' later later' (f state value) (f' state' value) R)
    {state : σ} {state' : σ'} (hstate : R state state') :
    Alike source source' consumed consumed' (values.foldlM f state) (values.foldlM f' state') R := by
  induction values generalizing consumed consumed' state state' with
  | nil => exact Alike.pure hstate
  | cons value rest ih =>
      obtain ⟨hvalue, hrest⟩ := List.forall_mem_cons.mp hf
      rw [List.foldlM_cons, List.foldlM_cons]
      refine Alike.bind (hvalue state state' _ _ Further.refl hstate) ?_
      intro next next' later later' hfurther hnext
      apply ih
      · intro value hmem state state' last last' hlast
        exact hrest value hmem state state' last last' (hfurther.trans hlast)
      · exact hnext

end Rules

end Voidwalk.Library.TwoReaders
