import Mathlib.Data.List.Infix
import Mathlib.Tactic.Common

/-!
A reader that draws symbols one at a time from a source and gives up after a
fixed number of them. The source may fail; the reader remembers what it drew.

`Yields` is its rule system for postconditions. `Local` is the two-run
judgement: the outcome depends only on the symbols that were drawn.
-/

namespace Voidwalk.Library.CountingReader

variable {β ε α α₁ α₂ σ : Type} {limit : Nat}

/-- The symbols drawn so far, at most `limit` of them. -/
structure Consumed (β : Type) (limit : Nat) where
  symbols : List β
  length_le : symbols.length ≤ limit
  deriving DecidableEq

namespace Consumed

def empty : Consumed β limit where
  symbols := []
  length_le := Nat.zero_le limit

abbrev length (consumed : Consumed β limit) : Nat := consumed.symbols.length

def push (consumed : Consumed β limit) (symbol : β) (h : consumed.length < limit) :
    Consumed β limit where
  symbols := consumed.symbols ++ [symbol]
  length_le := by
    rw [List.length_append]
    exact h

def append (consumed : Consumed β limit) (later : List β)
    (h : consumed.length + later.length ≤ limit) : Consumed β limit where
  symbols := consumed.symbols ++ later
  length_le := by
    rw [List.length_append]
    exact h

@[simp] theorem length_empty : (empty : Consumed β limit).length = 0 := rfl

@[simp] theorem symbols_push (consumed : Consumed β limit) (symbol : β)
    (h : consumed.length < limit) :
    (consumed.push symbol h).symbols = consumed.symbols ++ [symbol] := rfl

@[simp] theorem length_push (consumed : Consumed β limit) (symbol : β)
    (h : consumed.length < limit) : (consumed.push symbol h).length = consumed.length + 1 := by
  simp [length]

@[simp] theorem symbols_append (consumed : Consumed β limit) (later : List β)
    (h : consumed.length + later.length ≤ limit) :
    (consumed.append later h).symbols = consumed.symbols ++ later := rfl

@[simp] theorem length_append (consumed : Consumed β limit) (later : List β)
    (h : consumed.length + later.length ≤ limit) :
    (consumed.append later h).length = consumed.length + later.length := by
  simp [length]

@[ext] theorem ext {first second : Consumed β limit} (h : first.symbols = second.symbols) :
    first = second := by
  cases first
  cases second
  congr

theorem append_append (consumed : Consumed β limit) {first second : List β}
    (hfirst : consumed.length + first.length ≤ limit)
    (hsecond : (consumed.append first hfirst).length + second.length ≤ limit)
    (h : consumed.length + (first ++ second).length ≤ limit) :
    (consumed.append first hfirst).append second hsecond = consumed.append (first ++ second) h := by
  ext1
  simp

theorem length_le_limit (consumed : Consumed β limit) : consumed.length ≤ limit :=
  consumed.length_le

end Consumed

inductive Stop (ε : Type) where
  | limitReached
  | failed (error : ε)
  deriving DecidableEq

abbrev Source (β ε : Type) := Nat → Except ε β

abbrev Reader (β : Type) (limit : Nat) (ε : Type) := EStateM (Stop ε) (Consumed β limit)

/-- Draws the next symbol. The limit is checked before the source is asked. -/
def next (source : Source β ε) : Reader β limit ε β := fun consumed =>
  if h : consumed.length < limit then
    match source consumed.length with
    | .ok symbol => .ok symbol (consumed.push symbol h)
    | .error error => .error (.failed error) consumed
  else .error .limitReached consumed

/-- Looks at the next symbol without drawing it, past the limit too. -/
def peek (source : Source β ε) : Reader β limit ε β := fun consumed =>
  match source consumed.length with
  | .ok symbol => .ok symbol consumed
  | .error error => .error (.failed error) consumed

def attempt (result : Except ε α) : Reader β limit ε α := fun consumed =>
  match result with
  | .ok value => .ok value consumed
  | .error error => .error (.failed error) consumed

/-- Draws symbols until `step` makes a result of one. With `turns` at least the
number of symbols that may still be drawn, the first case is the limit. -/
def scan (source : Source β ε) (step : σ → β → σ ⊕ α) : Nat → σ → Reader β limit ε α
  | 0, _ => throw .limitReached
  | turns + 1, state => do
      let symbol ← next source
      match step state symbol with
      | .inl state => scan source step turns state
      | .inr value => pure value

theorem bind_of_ok {reader : Reader β limit ε α₁} {rest : α₁ → Reader β limit ε α₂}
    {consumed later : Consumed β limit} {value : α₁} (h : reader consumed = .ok value later) :
    (reader >>= rest) consumed = rest value later := by
  change EStateM.bind reader rest consumed = _
  rw [EStateM.bind, h]

theorem bind_of_error {reader : Reader β limit ε α₁} {rest : α₁ → Reader β limit ε α₂}
    {consumed later : Consumed β limit} {stop : Stop ε} (h : reader consumed = .error stop later) :
    (reader >>= rest) consumed = .error stop later := by
  change EStateM.bind reader rest consumed = _
  rw [EStateM.bind, h]

theorem exists_of_bind_ok {reader : Reader β limit ε α₁} {rest : α₁ → Reader β limit ε α₂}
    {consumed later : Consumed β limit} {result : α₂}
    (h : (reader >>= rest) consumed = .ok result later) :
    ∃ value middle, reader consumed = .ok value middle ∧ rest value middle = .ok result later := by
  cases hrun : reader consumed with
  | ok value middle =>
      rw [bind_of_ok hrun] at h
      exact ⟨value, middle, rfl, h⟩
  | error stop middle =>
      rw [bind_of_error hrun] at h
      contradiction

theorem next_of_ok {source : Source β ε} {consumed : Consumed β limit} {symbol : β}
    (hlimit : consumed.length < limit) (hsymbol : source consumed.length = .ok symbol) :
    next source consumed = .ok symbol (consumed.push symbol hlimit) := by
  simp only [next, dif_pos hlimit, hsymbol]

theorem next_of_error {source : Source β ε} {consumed : Consumed β limit} {error : ε}
    (hlimit : consumed.length < limit) (herror : source consumed.length = .error error) :
    next source consumed = .error (.failed error) consumed := by
  simp only [next, dif_pos hlimit, herror]

theorem next_of_limit {source : Source β ε} {consumed : Consumed β limit}
    (hlimit : ¬ consumed.length < limit) :
    next source consumed = .error .limitReached consumed :=
  dif_neg hlimit

theorem length_of_next {source : Source β ε} {consumed later : Consumed β limit} {symbol : β}
    (h : next source consumed = .ok symbol later) : later.length = consumed.length + 1 := by
  by_cases hlimit : consumed.length < limit
  · cases hsymbol : source consumed.length with
    | error error =>
        rw [next_of_error hlimit hsymbol] at h
        contradiction
    | ok supplied =>
        rw [next_of_ok hlimit hsymbol] at h
        rw [← (EStateM.Result.ok.inj h).2, Consumed.length_push]
  · rw [next_of_limit hlimit] at h
    contradiction

theorem scan_of_ok {source : Source β ε} {step : σ → β → σ ⊕ α} {consumed : Consumed β limit}
    {symbol : β} (turns : Nat) (state : σ) (hlimit : consumed.length < limit)
    (hsymbol : source consumed.length = .ok symbol) :
    scan source step (turns + 1) state consumed =
      match step state symbol with
      | .inl state => scan source step turns state (consumed.push symbol hlimit)
      | .inr value => .ok value (consumed.push symbol hlimit) := by
  rw [scan, bind_of_ok (next_of_ok hlimit hsymbol)]
  rcases step state symbol with state' | value <;> rfl

/-- Everything drawn came from the source, from its start on. -/
def Drawn (source : Source β ε) (consumed : Consumed β limit) : Prop :=
  ∀ i (h : i < consumed.symbols.length), source i = .ok consumed.symbols[i]

theorem Drawn.empty (source : Source β ε) : Drawn source (Consumed.empty : Consumed β limit) :=
  fun _ h => absurd h (Nat.not_lt_zero _)

theorem Drawn.of_prefix {source : Source β ε} {consumed later : Consumed β limit}
    (h : Drawn source later) (hgrown : consumed.symbols <+: later.symbols) :
    Drawn source consumed := by
  intro i hi
  have hlater := h i (Nat.lt_of_lt_of_le hi hgrown.length_le)
  rwa [hgrown.getElem hi]

theorem Drawn.push {source : Source β ε} {consumed : Consumed β limit} {symbol : β}
    (h : Drawn source consumed) (hlimit : consumed.length < limit)
    (hsymbol : source consumed.length = .ok symbol) :
    Drawn source (consumed.push symbol hlimit) := by
  intro i hi
  rcases Nat.lt_or_eq_of_le (Nat.lt_succ_iff.mp (by simpa using hi)) with hlt | rfl
  · simpa [List.getElem_append_left hlt] using h i hlt
  · simpa [Consumed.length] using hsymbol

theorem Drawn.source_length {source : Source β ε} {consumed later : Consumed β limit}
    (h : Drawn source later) (hlength : consumed.length < later.length) :
    source consumed.length = .ok later.symbols[consumed.length] :=
  h _ hlength

/-- What an outcome says about the source: a result satisfies `Q`, the limit is
only reported when it is reached, and a failure is the source's own, at the
position where the reader stopped. -/
def Settled (source : Source β ε) (consumed : Consumed β limit)
    (Q : α → Consumed β limit → Prop) : EStateM.Result (Stop ε) (Consumed β limit) α → Prop
  | .ok value later => consumed.symbols <+: later.symbols ∧ Drawn source later ∧ Q value later
  | .error .limitReached later =>
      consumed.symbols <+: later.symbols ∧ Drawn source later ∧ later.length = limit
  | .error (.failed error) later =>
      consumed.symbols <+: later.symbols ∧ Drawn source later ∧
        source later.length = .error error

structure Yields (source : Source β ε) (consumed : Consumed β limit) (reader : Reader β limit ε α)
    (Q : α → Consumed β limit → Prop) : Prop where
  settled : Drawn source consumed → Settled source consumed Q (reader consumed)

section Yields

variable {source : Source β ε} {consumed : Consumed β limit}

theorem Settled.trans {later : Consumed β limit} {Q : α → Consumed β limit → Prop}
    {outcome : EStateM.Result (Stop ε) (Consumed β limit) α} (h : Settled source later Q outcome)
    (hgrown : consumed.symbols <+: later.symbols) :
    Settled source consumed Q outcome := by
  rcases outcome with ⟨value, final⟩ | ⟨_ | error, final⟩ <;>
    exact ⟨hgrown.trans h.1, h.2⟩

theorem Yields.pure {value : α} {Q : α → Consumed β limit → Prop} (h : Q value consumed) :
    Yields source consumed (Pure.pure value) Q :=
  ⟨fun hdrawn => ⟨List.prefix_refl _, hdrawn, h⟩⟩

theorem Yields.mono {reader : Reader β limit ε α} {Q Q' : α → Consumed β limit → Prop}
    (h : Yields source consumed reader Q)
    (himp : ∀ value later, consumed.symbols <+: later.symbols → Q value later → Q' value later) :
    Yields source consumed reader Q' := by
  refine ⟨fun hdrawn => ?_⟩
  have hreader := h.settled hdrawn
  revert hreader
  rcases reader consumed with ⟨value, later⟩ | ⟨_ | error, later⟩
  · exact fun hreader => ⟨hreader.1, hreader.2.1, himp value later hreader.1 hreader.2.2⟩
  · exact id
  · exact id

theorem Yields.bind {reader : Reader β limit ε α₁} {rest : α₁ → Reader β limit ε α₂}
    {P : α₁ → Consumed β limit → Prop} {Q : α₂ → Consumed β limit → Prop}
    (hreader : Yields source consumed reader P)
    (hrest : ∀ value later, consumed.symbols <+: later.symbols → P value later →
      Yields source later (rest value) Q) :
    Yields source consumed (reader >>= rest) Q := by
  refine ⟨fun hdrawn => ?_⟩
  have hfirst := hreader.settled hdrawn
  rcases hrun : reader consumed with ⟨value, later⟩ | ⟨stop, later⟩ <;> rw [hrun] at hfirst
  · rw [bind_of_ok hrun]
    exact ((hrest value later hfirst.1 hfirst.2.2).settled hfirst.2.1).trans hfirst.1
  · rw [bind_of_error hrun]
    rcases stop with _ | error <;> exact hfirst

theorem Yields.and {reader : Reader β limit ε α} {Q Q' : α → Consumed β limit → Prop}
    (h : Yields source consumed reader Q) (h' : Yields source consumed reader Q') :
    Yields source consumed reader fun value later => Q value later ∧ Q' value later := by
  refine ⟨fun hdrawn => ?_⟩
  have hfirst := h.settled hdrawn
  have hsecond := h'.settled hdrawn
  revert hfirst hsecond
  rcases reader consumed with ⟨value, later⟩ | ⟨_ | error, later⟩
  · exact fun hfirst hsecond => ⟨hfirst.1, hfirst.2.1, hfirst.2.2, hsecond.2.2⟩
  · exact fun hfirst _ => hfirst
  · exact fun hfirst _ => hfirst

theorem Yields.next :
    Yields source consumed (next source) fun symbol later =>
      later.symbols = consumed.symbols ++ [symbol] := by
  refine ⟨fun hdrawn => ?_⟩
  by_cases hlimit : consumed.length < limit
  · rcases hsymbol : source consumed.length with error | symbol
    · rw [next_of_error hlimit hsymbol]
      exact ⟨List.prefix_refl _, hdrawn, hsymbol⟩
    · rw [next_of_ok hlimit hsymbol]
      exact ⟨List.prefix_append _ _, hdrawn.push hlimit hsymbol, rfl⟩
  · rw [next_of_limit hlimit]
    exact ⟨List.prefix_refl _, hdrawn, Nat.le_antisymm consumed.length_le (Nat.not_lt.mp hlimit)⟩

theorem Yields.nextBind {rest : β → Reader β limit ε α} {Q : α → Consumed β limit → Prop}
    (hrest : ∀ symbol later, consumed.symbols <+: later.symbols →
      Yields source later (rest symbol) Q) :
    Yields source consumed (CountingReader.next source >>= rest) fun value later =>
      consumed.length < later.length ∧ Q value later := by
  refine Yields.bind Yields.next fun symbol later hgrown hsymbols => ?_
  refine (hrest symbol later hgrown).mono fun value final hgrows hvalue => ⟨?_, hvalue⟩
  have hlength := hgrows.length_le
  rw [hsymbols, List.length_append, List.length_singleton] at hlength
  exact hlength

theorem Yields.peek :
    Yields source consumed (peek source) fun symbol later =>
      later = consumed ∧ source consumed.length = .ok symbol := by
  refine ⟨fun hdrawn => ?_⟩
  rw [CountingReader.peek]
  split
  · rename_i symbol hsymbol
    exact ⟨List.prefix_refl _, hdrawn, rfl, hsymbol⟩
  · rename_i error herror
    exact ⟨List.prefix_refl _, hdrawn, herror⟩

theorem Yields.attempt {result : Except ε α} {value : α} {Q : α → Consumed β limit → Prop}
    (hresult : result = .ok value) (h : Q value consumed) :
    Yields source consumed (attempt result) Q := by
  subst hresult
  exact ⟨fun hdrawn => ⟨List.prefix_refl _, hdrawn, h⟩⟩

theorem Yields.get :
    Yields source consumed (get : Reader β limit ε (Consumed β limit)) fun value later =>
      value = consumed ∧ later = consumed :=
  ⟨fun hdrawn => ⟨List.prefix_refl _, hdrawn, rfl, rfl⟩⟩

theorem Yields.scan {step : σ → β → σ ⊕ α} {I : σ → Consumed β limit → Prop}
    {Q : α → Consumed β limit → Prop}
    (hstep : ∀ state symbol (before after : Consumed β limit), I state before →
      after.symbols = before.symbols ++ [symbol] →
      match step state symbol with
      | .inl state => I state after
      | .inr value => Q value after)
    (turns : Nat) (state : σ) (hturns : limit ≤ consumed.length + turns)
    (hstate : I state consumed) :
    Yields source consumed (scan source step turns state) Q := by
  induction turns generalizing state consumed with
  | zero =>
      exact ⟨fun hdrawn =>
        ⟨List.prefix_refl _, hdrawn, Nat.le_antisymm consumed.length_le hturns⟩⟩
  | succ turns ih =>
      rw [CountingReader.scan]
      refine Yields.bind Yields.next ?_
      intro symbol later _ hlater
      have hnext := hstep state symbol consumed later hstate hlater
      revert hnext
      rcases step state symbol with state' | value
      · intro hnext
        refine ih state' ?_ hnext
        simp only [Consumed.length, hlater, List.length_append, List.length_singleton] at *
        omega
      · exact fun hnext => Yields.pure hnext

theorem Yields.foldlM {f : σ → α → Reader β limit ε σ} {I : List α → σ → Consumed β limit → Prop}
    (hf : ∀ value rest state (before : Consumed β limit), I (value :: rest) state before →
      Yields source before (f state value) (I rest))
    (values : List α) (state : σ) (hstate : I values state consumed) :
    Yields source consumed (values.foldlM f state) (I []) := by
  induction values generalizing state consumed with
  | nil => exact Yields.pure hstate
  | cons value rest ih =>
      rw [List.foldlM_cons]
      exact Yields.bind (hf value rest state consumed hstate)
        fun state' later _ hlater => ih state' hlater

end Yields

/-- The symbols that the source supplies from a position on. -/
def Supplies (source : Source β ε) (position : Nat) (symbols : List β) : Prop :=
  ∀ i symbol, symbols[i]? = some symbol → source (position + i) = .ok symbol

/-- Where the source supplies these symbols and the limit leaves room for them, the
reader draws exactly these and returns `value`. -/
structure Reads (source : Source β ε) (consumed : Consumed β limit) (reader : Reader β limit ε α)
    (symbols : List β) (value : α) : Prop where
  run : ∀ h : consumed.length + symbols.length ≤ limit,
    Supplies source consumed.length symbols →
      reader consumed = .ok value (consumed.append symbols h)

section Reads

variable {source : Source β ε} {consumed : Consumed β limit} {position : Nat}
  {first second : List β}

theorem Supplies.nil : Supplies source position [] := by
  intro i symbol hsymbol
  rw [List.getElem?_nil] at hsymbol
  contradiction

theorem Supplies.singleton {symbol : β} (h : source position = .ok symbol) :
    Supplies source position [symbol] := by
  intro i other hother
  obtain ⟨hi, rfl⟩ := List.getElem?_eq_some_iff.mp hother
  obtain rfl : i = 0 := Nat.lt_one_iff.mp hi
  exact h

theorem Supplies.append (hfirst : Supplies source position first)
    (hsecond : Supplies source (position + first.length) second) :
    Supplies source position (first ++ second) := by
  intro i symbol hsymbol
  by_cases hi : i < first.length
  · rw [List.getElem?_append_left hi] at hsymbol
    exact hfirst i symbol hsymbol
  · have hle := Nat.not_lt.mp hi
    rw [List.getElem?_append_right hle] at hsymbol
    have hsupplied := hsecond (i - first.length) symbol hsymbol
    rwa [Nat.add_assoc, Nat.add_sub_of_le hle] at hsupplied

theorem Supplies.left (h : Supplies source position (first ++ second)) :
    Supplies source position first := by
  intro i symbol hsymbol
  refine h i symbol ?_
  rw [List.getElem?_append_left (List.getElem?_eq_some_iff.mp hsymbol).1]
  exact hsymbol

theorem Supplies.right (h : Supplies source position (first ++ second)) :
    Supplies source (position + first.length) second := by
  intro i symbol hsymbol
  rw [Nat.add_assoc]
  refine h _ symbol ?_
  rw [List.getElem?_append_right (Nat.le_add_right _ _), Nat.add_sub_cancel_left]
  exact hsymbol

theorem Supplies.drawn {symbols : List β} (h : Supplies source 0 symbols)
    (hlimit : (Consumed.empty : Consumed β limit).length + symbols.length ≤ limit) :
    Drawn source (Consumed.empty.append symbols hlimit) := by
  intro i hi
  have hsymbol := h i _ (List.getElem?_eq_getElem hi)
  rwa [Nat.zero_add] at hsymbol

theorem Drawn.supplies {consumed : Consumed β limit} (h : Drawn source consumed) :
    Supplies source 0 consumed.symbols := by
  intro i symbol hsymbol
  obtain ⟨hi, rfl⟩ := List.getElem?_eq_some_iff.mp hsymbol
  rw [Nat.zero_add]
  exact h i hi

theorem Reads.pure {value : α} : Reads source consumed (Pure.pure value) [] value := by
  refine ⟨fun h _ => ?_⟩
  have hsame : consumed.append [] h = consumed := by
    ext1
    simp
  rw [hsame]
  rfl

theorem Reads.attempt {result : Except ε α} {value : α} (hresult : result = .ok value) :
    Reads source consumed (CountingReader.attempt result) [] value := by
  subst hresult
  exact Reads.pure

theorem Reads.get :
    Reads source consumed (get : Reader β limit ε (Consumed β limit)) [] consumed :=
  ⟨fun h hsupplies => Reads.pure.run h hsupplies⟩

theorem Reads.next {symbol : β} :
    Reads source consumed (CountingReader.next source) [symbol] symbol := by
  refine ⟨fun h hsupplies => ?_⟩
  exact next_of_ok h (hsupplies 0 symbol rfl)

theorem Reads.bind {reader : Reader β limit ε α₁} {rest : α₁ → Reader β limit ε α₂} {value : α₁}
    {result : α₂} (hreader : Reads source consumed reader first value)
    (hrest : ∀ h, Reads source (consumed.append first h) (rest value) second result) :
    Reads source consumed (reader >>= rest) (first ++ second) result := by
  refine ⟨fun h hsupplies => ?_⟩
  have hfirst : consumed.length + first.length ≤ limit := by
    rw [List.length_append] at h
    omega
  have hsecond : (consumed.append first hfirst).length + second.length ≤ limit := by
    rw [Consumed.length_append]
    rw [List.length_append] at h
    omega
  rw [bind_of_ok (hreader.run hfirst hsupplies.left),
    (hrest hfirst).run hsecond (by simpa using hsupplies.right), Consumed.append_append]

/-- The rest of a reader draws nothing. -/
theorem Reads.bindPure {reader : Reader β limit ε α₁} {rest : α₁ → Reader β limit ε α₂} {value : α₁}
    {result : α₂} (hreader : Reads source consumed reader first value)
    (hrest : ∀ h, Reads source (consumed.append first h) (rest value) [] result) :
    Reads source consumed (reader >>= rest) first result :=
  List.append_nil first ▸ hreader.bind hrest

end Reads

/-- Where the source supplies these symbols, the reader draws them and returns `value`, or it
stops at the limit before their end. -/
structure Demands (source : Source β ε) (consumed : Consumed β limit) (reader : Reader β limit ε α)
    (symbols : List β) (value : α) : Prop where
  run : Supplies source consumed.length symbols →
    (∃ h : consumed.length + symbols.length ≤ limit,
      reader consumed = .ok value (consumed.append symbols h)) ∨
    (limit < consumed.length + symbols.length ∧
      ∃ later, reader consumed = .error .limitReached later)

section Demands

variable {source : Source β ε} {consumed : Consumed β limit} {first second : List β}

theorem Demands.reads {reader : Reader β limit ε α} {symbols : List β} {value : α}
    (h : Demands source consumed reader symbols value) :
    Reads source consumed reader symbols value := by
  refine ⟨fun hlimit hsupplies => ?_⟩
  rcases h.run hsupplies with hok | ⟨hbeyond, -⟩
  · exact hok.choose_spec
  · omega

theorem Demands.of_reads {reader : Reader β limit ε α} {value : α}
    (h : Reads source consumed reader [] value) : Demands source consumed reader [] value :=
  ⟨fun hsupplies => Or.inl ⟨consumed.length_le, h.run consumed.length_le hsupplies⟩⟩

theorem Demands.pure {value : α} : Demands source consumed (Pure.pure value) [] value :=
  Demands.of_reads Reads.pure

theorem Demands.attempt {result : Except ε α} {value : α} (hresult : result = .ok value) :
    Demands source consumed (CountingReader.attempt result) [] value :=
  Demands.of_reads (Reads.attempt hresult)

theorem Demands.next {symbol : β} :
    Demands source consumed (CountingReader.next source) [symbol] symbol := by
  refine ⟨fun hsupplies => ?_⟩
  by_cases hlimit : consumed.length < limit
  · exact Or.inl ⟨hlimit, Reads.next.run hlimit hsupplies⟩
  · exact Or.inr ⟨Nat.lt_succ_of_le (Nat.not_lt.mp hlimit), consumed, next_of_limit hlimit⟩

theorem Demands.bind {reader : Reader β limit ε α₁} {rest : α₁ → Reader β limit ε α₂} {value : α₁}
    {result : α₂} (hreader : Demands source consumed reader first value)
    (hrest : ∀ h, Demands source (consumed.append first h) (rest value) second result) :
    Demands source consumed (reader >>= rest) (first ++ second) result := by
  refine ⟨fun hsupplies => ?_⟩
  have hlength : (first ++ second).length = first.length + second.length := List.length_append
  rcases hreader.run hsupplies.left with ⟨hfirst, hok⟩ | ⟨hbeyond, later, hstop⟩
  · rw [bind_of_ok hok]
    have hright : Supplies source (consumed.append first hfirst).length second := by
      rw [Consumed.length_append]
      exact hsupplies.right
    rcases (hrest hfirst).run hright with ⟨hsecond, hok⟩ | ⟨hbeyond, hstop⟩
    · have hboth : consumed.length + (first ++ second).length ≤ limit := by
        rw [Consumed.length_append] at hsecond
        omega
      refine Or.inl ⟨hboth, ?_⟩
      rw [hok, Consumed.append_append]
    · rw [Consumed.length_append] at hbeyond
      exact Or.inr ⟨by omega, hstop⟩
  · rw [bind_of_error hstop]
    exact Or.inr ⟨by omega, later, rfl⟩

/-- The reader asks for a symbol that it does not draw. -/
theorem Demands.peekBind {rest : β → Reader β limit ε α} {symbol : β} {symbols : List β}
    {value : α}
    (hrest : Demands source consumed (rest symbol) (symbol :: symbols) value) :
    Demands source consumed (CountingReader.peek source >>= rest) (symbol :: symbols) value := by
  refine ⟨fun hsupplies => ?_⟩
  have hpeek : (CountingReader.peek source : Reader β limit ε β) consumed = .ok symbol consumed := by
    rw [CountingReader.peek]
    have hsymbol := hsupplies 0 symbol rfl
    rw [Nat.add_zero] at hsymbol
    rw [hsymbol]
  rw [bind_of_ok hpeek]
  exact hrest.run hsupplies

/-- A scan that goes on over `symbols` and makes its result of the next one. -/
theorem Demands.scan {step : σ → β → σ ⊕ α} {advance : σ → β → σ} {finish : σ → α}
    {symbols : List β} {last : β}
    (hstep : ∀ symbol ∈ symbols, ∀ state, step state symbol = .inl (advance state symbol))
    (hlast : ∀ state, step state last = .inr (finish state)) (turns : Nat) (state : σ)
    (hturns : limit ≤ consumed.length + turns) :
    Demands source consumed (CountingReader.scan source step turns state) (symbols ++ [last])
      (finish (symbols.foldl advance state)) := by
  induction symbols generalizing turns state consumed with
  | nil =>
      cases turns with
      | zero => exact ⟨fun _ => Or.inr ⟨Nat.lt_succ_of_le hturns, consumed, rfl⟩⟩
      | succ turns =>
          rw [CountingReader.scan, List.nil_append, ← List.append_nil [last]]
          refine Demands.bind Demands.next fun _ => ?_
          rw [hlast]
          exact Demands.pure
  | cons symbol rest ih =>
      obtain ⟨hsymbol, hrest⟩ := List.forall_mem_cons.mp hstep
      cases turns with
      | zero =>
          refine ⟨fun _ => Or.inr ⟨?_, consumed, rfl⟩⟩
          rw [List.length_append, List.length_cons, List.length_singleton]
          omega
      | succ turns =>
          rw [CountingReader.scan, List.cons_append, List.foldl_cons]
          refine @Demands.bind _ _ _ _ _ _ _ [symbol] _ _ _ _ _ Demands.next fun _ => ?_
          rw [hsymbol]
          apply ih hrest
          rw [Consumed.length_append, List.length_singleton]
          omega

end Demands

/-- An outcome that any other source repeats as long as it supplies the symbols
that were drawn. Nothing is asked of a failure of the source. -/
def Confined (source : Source β ε) (consumed : Consumed β limit)
    (reader : Source β ε → Reader β limit ε α) :
    EStateM.Result (Stop ε) (Consumed β limit) α → Prop
  | .error (.failed _) _ => True
  | .error .limitReached later => consumed.symbols <+: later.symbols ∧ Drawn source later ∧
      ∀ other, Drawn other later → reader other consumed = .error .limitReached later
  | .ok value later => consumed.symbols <+: later.symbols ∧ Drawn source later ∧
      ∀ other, Drawn other later → reader other consumed = .ok value later

/-- The run on `source` depends on the symbols it draws only. -/
structure Local (source : Source β ε) (consumed : Consumed β limit)
    (reader : Source β ε → Reader β limit ε α) : Prop where
  confined : Drawn source consumed → Confined source consumed reader (reader source consumed)

section Local

variable {source : Source β ε} {consumed : Consumed β limit}

theorem Local.pure {value : α} :
    Local source consumed fun _ => (Pure.pure value : Reader β limit ε α) :=
  ⟨fun hdrawn => ⟨List.prefix_refl _, hdrawn, fun _ _ => rfl⟩⟩

theorem Local.attempt {result : Except ε α} :
    Local source consumed fun _ => (attempt result : Reader β limit ε α) := by
  refine ⟨fun hdrawn => ?_⟩
  rcases result with error | value
  · trivial
  · exact ⟨List.prefix_refl _, hdrawn, fun _ _ => rfl⟩

theorem Local.get :
    Local source consumed fun _ => (get : Reader β limit ε (Consumed β limit)) :=
  ⟨fun hdrawn => ⟨List.prefix_refl _, hdrawn, fun _ _ => rfl⟩⟩

theorem Local.next : Local source consumed (next : Source β ε → Reader β limit ε β) := by
  refine ⟨fun hdrawn => ?_⟩
  by_cases hlimit : consumed.length < limit
  · rcases hsymbol : source consumed.length with error | symbol
    · rw [next_of_error hlimit hsymbol]
      trivial
    · rw [next_of_ok hlimit hsymbol]
      refine ⟨List.prefix_append _ _, hdrawn.push hlimit hsymbol, fun other hother => ?_⟩
      have hsame := hother consumed.length (by simp)
      simp only [Consumed.symbols_push, List.getElem_concat_length] at hsame
      exact next_of_ok hlimit hsame
  · rw [next_of_limit hlimit]
    exact ⟨List.prefix_refl _, hdrawn, fun other _ => next_of_limit hlimit⟩

theorem Local.of_drawn {reader : Source β ε → Reader β limit ε α}
    (h : Drawn source consumed → Local source consumed reader) : Local source consumed reader :=
  ⟨fun hdrawn => (h hdrawn).confined hdrawn⟩

theorem Local.ite {condition : Prop} [Decidable condition]
    {first second : Source β ε → Reader β limit ε α}
    (hfirst : condition → Local source consumed first)
    (hsecond : ¬ condition → Local source consumed second) :
    Local source consumed fun source => if condition then first source else second source := by
  by_cases h : condition
  · simpa only [if_pos h] using hfirst h
  · simpa only [if_neg h] using hsecond h

theorem Confined.after {reader : Source β ε → Reader β limit ε α₁}
    {rest : Source β ε → α₁ → Reader β limit ε α₂} {value : α₁} {later : Consumed β limit}
    {outcome : EStateM.Result (Stop ε) (Consumed β limit) α₂}
    (h : Confined source later (fun source => rest source value) outcome)
    (hgrown : consumed.symbols <+: later.symbols)
    (hsame : ∀ other, Drawn other later → reader other consumed = .ok value later) :
    Confined source consumed (fun source => reader source >>= rest source) outcome := by
  rcases outcome with ⟨value', final⟩ | ⟨_ | error, final⟩
  · refine ⟨hgrown.trans h.1, h.2.1, fun other hother => ?_⟩
    exact (bind_of_ok (hsame other (hother.of_prefix h.1))).trans (h.2.2 other hother)
  · refine ⟨hgrown.trans h.1, h.2.1, fun other hother => ?_⟩
    exact (bind_of_ok (hsame other (hother.of_prefix h.1))).trans (h.2.2 other hother)
  · trivial

/-- The rest of a reader may use what its first part is known to yield. -/
theorem Local.bindYields {reader : Source β ε → Reader β limit ε α₁}
    {rest : Source β ε → α₁ → Reader β limit ε α₂} {P : α₁ → Consumed β limit → Prop}
    (hreader : Local source consumed reader) (hyields : Yields source consumed (reader source) P)
    (hrest : ∀ value later, P value later → Local source later fun source => rest source value) :
    Local source consumed fun source => reader source >>= rest source := by
  refine ⟨fun hdrawn => ?_⟩
  have hfirst := hreader.confined hdrawn
  have hvalue := hyields.settled hdrawn
  change Confined source consumed _ ((reader source >>= rest source) consumed)
  rcases hrun : reader source consumed with ⟨value, later⟩ | ⟨_ | error, later⟩ <;>
    rw [hrun] at hfirst hvalue
  · obtain ⟨hgrown, hlater, hsame⟩ := hfirst
    rw [bind_of_ok hrun]
    exact ((hrest value later hvalue.2.2).confined hlater).after hgrown hsame
  · rw [bind_of_error hrun]
    exact ⟨hfirst.1, hfirst.2.1, fun other hother => bind_of_error (hfirst.2.2 other hother)⟩
  · rw [bind_of_error hrun]
    trivial

theorem Local.bind {reader : Source β ε → Reader β limit ε α₁}
    {rest : Source β ε → α₁ → Reader β limit ε α₂} (hreader : Local source consumed reader)
    (hrest : ∀ value later, Local source later fun source => rest source value) :
    Local source consumed fun source => reader source >>= rest source := by
  refine ⟨fun hdrawn => ?_⟩
  have hfirst := hreader.confined hdrawn
  change Confined source consumed _ ((reader source >>= rest source) consumed)
  rcases hrun : reader source consumed with ⟨value, later⟩ | ⟨_ | error, later⟩ <;>
    rw [hrun] at hfirst
  · obtain ⟨hgrown, hlater, hsame⟩ := hfirst
    rw [bind_of_ok hrun]
    exact ((hrest value later).confined hlater).after hgrown hsame
  · rw [bind_of_error hrun]
    exact ⟨hfirst.1, hfirst.2.1, fun other hother => bind_of_error (hfirst.2.2 other hother)⟩
  · rw [bind_of_error hrun]
    trivial

/-- A look-ahead is harmless below the limit when the rest draws at least the
symbol that was looked at. -/
theorem Local.peekBind {rest : Source β ε → β → Reader β limit ε α}
    (hlimit : consumed.length < limit)
    (hrest : ∀ symbol, Local source consumed fun source => rest source symbol)
    (hdraws : ∀ symbol, Yields source consumed (rest source symbol) fun _ later =>
      consumed.length < later.length) :
    Local source consumed fun source => peek source >>= rest source := by
  refine ⟨fun hdrawn => ?_⟩
  rcases hsymbol : source consumed.length with error | symbol
  · have hpeek : peek source consumed = .error (.failed error) consumed := by
      simp only [peek, hsymbol]
    rw [bind_of_error hpeek]
    trivial
  · have hpeek (other : Source β ε) (h : other consumed.length = .ok symbol) :
        peek other consumed = .ok symbol consumed := by
      simp only [peek, h]
    have hsame (later : Consumed β limit) (hlater : Drawn source later)
        (hlength : consumed.length < later.length) (other : Source β ε)
        (hother : Drawn other later) : other consumed.length = .ok symbol := by
      rw [hother.source_length hlength, ← hlater.source_length hlength, hsymbol]
    have hlocal : Confined source consumed (fun source => rest source symbol)
        (rest source symbol consumed) := (hrest symbol).confined hdrawn
    have hyields := (hdraws symbol).settled hdrawn
    rw [bind_of_ok (hpeek source hsymbol)]
    rcases hrun : rest source symbol consumed with ⟨value, later⟩ | ⟨_ | error, later⟩ <;>
      rw [hrun] at hlocal hyields
    · refine ⟨hlocal.1, hlocal.2.1, fun other hother => ?_⟩
      have hpeeked := hpeek other (hsame later hlocal.2.1 hyields.2.2 other hother)
      exact (bind_of_ok hpeeked).trans (hlocal.2.2 other hother)
    · refine ⟨hlocal.1, hlocal.2.1, fun other hother => ?_⟩
      have hlength : consumed.length < later.length := by
        rw [hyields.2.2]
        exact hlimit
      have hpeeked := hpeek other (hsame later hlocal.2.1 hlength other hother)
      exact (bind_of_ok hpeeked).trans (hlocal.2.2 other hother)
    · trivial

theorem Local.scan {step : σ → β → σ ⊕ α} (turns : Nat) (state : σ) :
    Local source consumed fun source =>
      (scan source step turns state : Reader β limit ε α) := by
  induction turns generalizing state consumed with
  | zero => exact ⟨fun hdrawn => ⟨List.prefix_refl _, hdrawn, fun _ _ => rfl⟩⟩
  | succ turns ih =>
      refine Local.bind Local.next ?_
      intro symbol later
      rcases hstep : step state symbol with state' | value
      · simpa only [hstep] using ih state'
      · simpa only [hstep] using Local.pure

theorem Local.foldlM {f : Source β ε → σ → α → Reader β limit ε σ}
    (hf : ∀ state value (before : Consumed β limit),
      Local source before fun source => f source state value)
    (values : List α) (state : σ) :
    Local source consumed fun source => values.foldlM (f source) state := by
  induction values generalizing state consumed with
  | nil => exact Local.pure
  | cons value rest ih =>
      simp only [List.foldlM_cons]
      exact Local.bind (hf state value consumed) fun state' later => ih state'

end Local

end Voidwalk.Library.CountingReader
