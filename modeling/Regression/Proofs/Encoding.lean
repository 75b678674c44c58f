import Regression.Proofs.Expr.Nodes
import Regression.Trace.Basic

/-!
# What is written is read back

A trace is written as a JSON value and read from one. This file shows that nothing is lost on the
way: what is read from the value of a trace is the trace itself, with the locations of its
expressions, which the equality of expressions does not look at, and with the bit patterns of its
reals. The one thing without a JSON form is a real that is not finite, so a trace is read back just
if all its reals are finite, and otherwise nothing is read.

Every kind of record has one lemma, on what is read from the values of its records, which is put
together from the lemmas of the fields with `GivesIf.bind`.

* `Location.ofJson?_toJson`: locations, with a branch or without.
* `Expr.givesIf_toJson`: expressions, by recursion on the tree.
* `traces_survive`: traces.
-/

namespace Regression

/-! ## Values -/

/-- Unlike `Option.bind_some`, a step of its own for the kernel, which is not to compute with the
bounds of a number. -/
theorem some_bind {α β : Type} (a : α) (k : α → Option β) : (some a >>= k) = k a := by
  rw [Option.bind_eq_bind, Option.bind_some]

section

variable {α β : Type} {x : Option α} {k : α → Option β} {P Q : Prop} {a : α} {b : β}

/-- A reading gives a value on a condition: that value if the condition holds, and otherwise
nothing. -/
def GivesIf (x : Option α) (P : Prop) (a : α) : Prop := ∀ b, x = some b ↔ P ∧ a = b

theorem GivesIf.eq_some (h : GivesIf x P a) (hp : P) : x = some a := (h a).mpr ⟨hp, rfl⟩

theorem GivesIf.bind (hx : GivesIf x P a) (hk : GivesIf (k a) Q b) :
    GivesIf (x >>= k) (P ∧ Q) b := by
  intro c
  rw [Option.bind_eq_bind, Option.bind_eq_some_iff]
  constructor
  · rintro ⟨a', hx', hk'⟩
    obtain ⟨hp, rfl⟩ := (hx a').mp hx'
    obtain ⟨hq, rfl⟩ := (hk c).mp hk'
    exact ⟨⟨hp, hq⟩, rfl⟩
  · rintro ⟨⟨hp, hq⟩, rfl⟩
    exact ⟨a, hx.eq_some hp, hk.eq_some hq⟩

theorem GivesIf.bind_pure (hx : GivesIf x P a) (f : α → β) :
    GivesIf (do return f (← x)) P (f a) := by
  have hpure : GivesIf (pure (f a) : Option β) True (f a) := fun b => by simp
  exact and_true P ▸ hx.bind hpure

end

namespace Json

variable {α : Type} {fields : List (String × Json)} {name : String}

theorem uint32?_int (i : Int) :
    (int i).uint32? = if 0 ≤ i && i < UInt32.size then some (.ofNat i.toNat) else none := by
  rw [uint32?, int?, some_bind]

theorem uint32?_toNat (n : UInt32) : (int n.toNat).uint32? = some n := by
  have hlt : n.toNat < 4294967296 := n.toNat_lt
  have hbounds : (0 ≤ (n.toNat : Int) && (n.toNat : Int) < UInt32.size) = true := by
    simp only [UInt32.size, Bool.and_eq_true, decide_eq_true_eq]
    omega
  rw [uint32?_int, if_pos hbounds, Int.toNat_natCast, UInt32.ofNat_toNat]

theorem int64?_int (i : Int) :
    (int i).int64? =
      if Int64.minValue.toInt ≤ i && i ≤ Int64.maxValue.toInt then some (.ofInt i) else none := by
  rw [int64?, int?, some_bind]

theorem int64?_toInt (v : Int64) : (int v.toInt).int64? = some v := by
  have hbounds : (Int64.minValue.toInt ≤ v.toInt && v.toInt ≤ Int64.maxValue.toInt) = true := by
    rw [Bool.and_eq_true, decide_eq_true_eq, decide_eq_true_eq]
    exact ⟨v.minValue_le_toInt, v.toInt_le⟩
  rw [int64?_int, if_pos hbounds, Int64.ofInt_toInt]

theorem names?_ofNames (names : NameSet) : (ofNames names).names? = some names := by
  have htexts : (names.toList.map text).mapM text? = some names.toList := by
    induction names.toList with
    | nil => rfl
    | cons name names ih => simp [ih, text?]
  have hset : NameSet.ofList names.toList = names := NameSet.ext fun x => NameSet.mem_ofList
  simp [names?, ofNames, array?, htexts, hset]

/-- A list is read back if all its items are. -/
theorem givesIf_listOf? {encode : α → Json} {decode : Json → Option α} {P : α → Prop}
    (h : ∀ a, GivesIf (decode (encode a)) (P a) a) (as : List α) :
    GivesIf (listOf? decode (array (as.map encode))) (∀ a ∈ as, P a) as := by
  simp only [listOf?, array?, some_bind]
  induction as with
  | nil => exact fun bs => by simp
  | cons a as ih =>
    rw [List.map_cons, List.mapM_cons, List.forall_mem_cons]
    exact (h a).bind (ih.bind_pure (a :: ·))

theorem nullableField?_of_eq {decode : Json → Option α} {value : Json}
    (h : valuesOf name fields = [value]) (hvalue : value ≠ .null) :
    nullableField? fields name decode = (decode value).map some := by
  simp only [nullableField?, optionalField?, h, some_bind]

theorem nullableField?_of_nil {decode : Json → Option α} (h : valuesOf name fields = []) :
    nullableField? fields name decode = some none := by
  simp only [nullableField?, optionalField?, h, some_bind]

end Json

theorem Operator.ofSymbol?_symbol (op : Operator) : ofSymbol? op.symbol = some op := by
  cases op <;> decide

theorem ValueSort.ofName?_name (s : ValueSort) : ofName? s.name = some s := by
  cases s <;> decide

theorem MathFunction.ofName?_name (f : MathFunction) : ofName? f.name = some f := by
  cases f <;> decide

theorem Location.ofJson?_toJson (l : Location) : ofJson? l.toJson = some l := by
  obtain ⟨filePath, className, methodName, lineNumber, choice⟩ := l
  cases choice <;>
    simp [-Option.bind_eq_bind, some_bind, ofJson?, toJson, Json.object?, Json.field?,
      Json.valuesOf, Json.text?, Json.nullableField?, Json.optionalField?, Json.uint32?_toNat]

theorem AbstractedUnit.ofJson?_toJson (u : AbstractedUnit) : ofJson? u.toJson = some u := by
  simp [-Option.bind_eq_bind, some_bind, ofJson?, toJson, Json.object?, Json.field?,
    Json.valuesOf, Json.text?, Json.fieldOr, Json.optionalField?, Json.bool?, Json.uint32?_toNat]

/-! ## Expressions -/

namespace Expr

/-- All real constants of the expression are finite. -/
def RealsFinite (e : Expr) : Prop := ∀ x, (Expr.const (.real x)).Occurs e → x.isFinite

theorem realsFinite_const {c : Constant} :
    (Expr.const c).RealsFinite ↔ ∀ x, c = .real x → x.isFinite := by
  constructor
  · rintro h x rfl
    exact h x .self
  · rintro h x hx
    cases hx
    exact h x rfl

theorem realsFinite_var (name : String) (sort : ValueSort) :
    (Expr.var name sort).RealsFinite := by
  intro x hx
  cases hx

theorem realsFinite_binary {op : Operator} {l r : Expr} {location : Option Location} :
    (Expr.binary op l r location).RealsFinite ↔ l.RealsFinite ∧ r.RealsFinite := by
  constructor
  · intro h
    exact ⟨fun x hx => h x (.left hx), fun x hx => h x (.right hx)⟩
  · rintro ⟨hl, hr⟩ x hx
    cases hx with
    | left hx => exact hl x hx
    | right hx => exact hr x hx

theorem realsFinite_uif {name : String} {sort : ValueSort} {args : List Expr} :
    (Expr.uif name sort args).RealsFinite ↔ ∀ e ∈ args, e.RealsFinite := by
  constructor
  · intro h e he x hx
    exact h x (.uifArg he hx)
  · intro h x hx
    cases hx with
    | uifArg he hx => exact h _ he x hx

theorem realsFinite_math {function : MathFunction} {args : List Expr} :
    (Expr.math function args).RealsFinite ↔ ∀ e ∈ args, e.RealsFinite := by
  constructor
  · intro h e he x hx
    exact h x (.mathArg he hx)
  · intro h x hx
    cases hx with
    | mathArg he hx => exact h _ he x hx

end Expr

theorem Constant.givesIf_toJson (c : Constant) :
    GivesIf (ofJson? c.toJson) (Expr.const c).RealsFinite c := by
  intro d
  rw [Expr.realsFinite_const]
  cases c with
  | real x =>
    cases hx : x.isFinite <;>
      simp [ofJson?, toJson, Json.object?, Json.field?, Json.valuesOf, Json.partName?, Json.name?,
        Json.number?, hx]
  | _ =>
    simp [ofJson?, toJson, Json.object?, Json.field?, Json.valuesOf, Json.partName?, Json.name?,
      Json.int64?_toInt, Json.bool?, Json.text?]

namespace Expr

variable {fields : List (String × Json)}

/-! What is read from an object whose fields are known, kind by kind. -/

theorem ofPart?_const {value : Json}
    (hkind : Json.field? fields "kind" = some (.text "constant"))
    (hvalue : Json.field? fields "value" = some value) :
    ofPart? (.object fields) = do return .const (← Constant.ofJson? value) := by
  rw [ofPart?]
  simp only [hkind, hvalue, kindName?, some_bind]

theorem ofPart?_var {name : String} {sort : ValueSort}
    (hkind : Json.field? fields "kind" = some (.text "variable"))
    (hname : Json.field? fields "name" = some (.text name))
    (hsort : Json.field? fields "sort" = some (.text sort.name)) :
    ofPart? (.object fields) = some (.var name sort) := by
  rw [ofPart?]
  simp only [hkind, hname, hsort, kindName?, Json.text?, Json.partName?, Json.name?,
    ValueSort.ofName?_name, some_bind]
  rfl

theorem ofPart?_binary {op : Operator} {left right : Json}
    (hkind : Json.field? fields "kind" = some (.text "binary"))
    (hop : Json.field? fields "op" = some (.text op.symbol))
    (hleft : Json.field? fields "left" = some left)
    (hright : Json.field? fields "right" = some right) :
    ofPart? (.object fields) = do
      return .binary op (← ofPart? left) (← ofPart? right)
        (← Json.nullableField? fields "location" Location.ofJson?) := by
  rw [ofPart?]
  simp only [hkind, hop, kindName?, Json.partName?, Json.name?, Operator.ofSymbol?_symbol,
    some_bind]
  split
  · next hl hr =>
    cases hleft.symm.trans hl
    cases hright.symm.trans hr
    rfl
  · next h => exact absurd hright (h _ _ hleft)

theorem ofPart?_uif {name : String} {sort : ValueSort} {args : List Json}
    (hkind : Json.field? fields "kind" = some (.text "uif"))
    (hname : Json.field? fields "name" = some (.text name))
    (hsort : Json.field? fields "sort" = some (.text sort.name))
    (hargs : Json.field? fields "args" = some (.array args)) :
    ofPart? (.object fields) = do return .uif name sort (← ofParts? args) := by
  rw [ofPart?]
  simp only [hkind, hname, hsort, kindName?, Json.text?, Json.partName?, Json.name?,
    ValueSort.ofName?_name, some_bind]
  split
  · next h =>
    cases hargs.symm.trans h
    rfl
  · next h => exact absurd hargs (h _)

theorem ofPart?_math {function : MathFunction} {args : List Json}
    (hkind : Json.field? fields "kind" = some (.text "math"))
    (hfunction : Json.field? fields "function" = some (.text function.name))
    (hargs : Json.field? fields "args" = some (.array args)) :
    ofPart? (.object fields) = do return .math function (← ofParts? args) := by
  rw [ofPart?]
  simp only [hkind, hfunction, kindName?, Json.partName?, Json.name?, MathFunction.ofName?_name,
    some_bind]
  split
  · next h =>
    cases hargs.symm.trans h
    rfl
  · next h => exact absurd hargs (h _)

theorem ofPart?_toJson_binary (op : Operator) (l r : Expr) (location : Option Location) :
    ofPart? (Expr.binary op l r location).toJson = do
      return .binary op (← ofPart? l.toJson) (← ofPart? r.toJson) location := by
  cases location with
  | none =>
    rw [toJson, ofPart?_binary rfl rfl rfl rfl, Json.nullableField?_of_nil rfl]
    simp only [some_bind]
  | some location =>
    rw [toJson, ofPart?_binary rfl rfl rfl rfl, Json.nullableField?_of_eq rfl (by nofun),
      Location.ofJson?_toJson, Option.map_some]
    simp only [some_bind]

mutual

theorem givesIf_toJson : ∀ e : Expr, GivesIf (ofPart? e.toJson) e.RealsFinite e
  | .const c => by
    rw [toJson, ofPart?_const rfl rfl]
    exact c.givesIf_toJson.bind_pure Expr.const
  | .var name sort => by
    rw [toJson, ofPart?_var rfl rfl rfl]
    exact fun d => by simp [realsFinite_var]
  | .binary op l r location => by
    rw [ofPart?_toJson_binary, realsFinite_binary]
    exact (givesIf_toJson l).bind ((givesIf_toJson r).bind_pure (Expr.binary op l · location))
  | .uif name sort args => by
    rw [toJson, ofPart?_uif rfl rfl rfl rfl, realsFinite_uif]
    exact (givesIf_toJsons args).bind_pure (Expr.uif name sort)
  | .math function args => by
    rw [toJson, ofPart?_math rfl rfl rfl, realsFinite_math]
    exact (givesIf_toJsons args).bind_pure (Expr.math function)

theorem givesIf_toJsons :
    ∀ es : List Expr, GivesIf (ofParts? (toJsons es)) (∀ e ∈ es, e.RealsFinite) es
  | [] => fun ds => by simp [toJsons, ofParts?]
  | e :: es => by
    rw [toJsons, ofParts?, List.forall_mem_cons]
    exact (givesIf_toJson e).bind ((givesIf_toJsons es).bind_pure (e :: ·))

end

end Expr

/-! Nothing but values is written. -/

attribute [simp] Json.isReadable Json.areReadable Json.haveReadable Json.hasReadable

@[simp] theorem Location.isReadable_toJson (l : Location) : l.toJson.isReadable := by
  unfold toJson
  cases l.choice <;> simp

@[simp] theorem Constant.isReadable_toJson (c : Constant) : c.toJson.isReadable := by
  cases c with
  | real x => cases hx : x.isFinite <;> simp [toJson, hx]
  | _ => simp [toJson]

namespace Expr

mutual

@[simp] theorem isReadable_toJson : ∀ e : Expr, e.toJson.isReadable
  | .const c => by simp [toJson]
  | .var name sort => by simp [toJson]
  | .binary op l r location => by
    cases location <;> simp [toJson, isReadable_toJson l, isReadable_toJson r]
  | .uif name sort args => by simp [toJson, areReadable_toJsons args]
  | .math function args => by simp [toJson, areReadable_toJsons args]

theorem areReadable_toJsons : ∀ es : List Expr, Json.areReadable (toJsons es)
  | [] => by rw [toJsons, Json.areReadable]
  | e :: es => by
    rw [toJsons, Json.areReadable, isReadable_toJson e, areReadable_toJsons es, Bool.and_true]

end

theorem exists_kind (e : Expr) : ∃ fields kind,
    e.toJson = .object fields ∧ Json.field? fields "kind" = some (.text kind) := by
  cases e with
  | binary op l r location => cases location <;> exact ⟨_, _, rfl, rfl⟩
  | _ => exact ⟨_, _, rfl, rfl⟩

theorem ofJson?_toJson (e : Expr) : ofJson? e.toJson = ofPart? e.toJson := by
  have hread := e.isReadable_toJson
  obtain ⟨fields, kind, hfields, hkind⟩ := e.exists_kind
  rw [hfields] at hread ⊢
  simp only [ofJson?, Json.object?, some_bind, hkind, Json.text?, if_pos hread]

end Expr

/-! ## Partitions -/

namespace Outcome

/-- All real constants of the outcome are finite. -/
def RealsFinite (o : Outcome) : Prop := ∀ e ∈ o.expr?, e.RealsFinite

theorem isReadable_toJson (o : Outcome) : o.toJson.isReadable := by
  cases o <;> simp [toJson]

theorem givesIf_toJson (o : Outcome) : GivesIf (ofJson? o.toJson) o.RealsFinite o := by
  have hread := o.isReadable_toJson
  cases o with
  | concrete v =>
    have hreading : ofJson? (concrete v).toJson = do
        return .concrete (← Constant.ofJson? v.toJson) := by
      rw [ofJson?, hread]
      rfl
    have hreals : (concrete v).RealsFinite ↔ (Expr.const v).RealsFinite := by
      simp [RealsFinite, expr?]
    rw [hreading, hreals]
    exact v.givesIf_toJson.bind_pure concrete
  | symbolic e =>
    have hreading : ofJson? (symbolic e).toJson = do
        return .symbolic (← Expr.ofPart? e.toJson) := by
      rw [ofJson?, hread]
      rfl
    have hreals : (symbolic e).RealsFinite ↔ e.RealsFinite := by
      simp [RealsFinite, expr?]
    rw [hreading, hreals]
    exact e.givesIf_toJson.bind_pure symbolic
  | raised error =>
    have hreading : ofJson? (raised error).toJson = some (raised error) := by
      rw [ofJson?, hread]
      rfl
    rw [hreading]
    exact fun o => by simp [RealsFinite, expr?]

end Outcome

namespace Partition

/-- All real constants of the partition are finite. -/
def RealsFinite (p : Partition) : Prop := ∀ e ∈ p.exprs, e.RealsFinite

theorem realsFinite_iff {p : Partition} :
    p.RealsFinite ↔ p.pc.RealsFinite ∧ p.v1.RealsFinite ∧ p.v2.RealsFinite := by
  simp [RealsFinite, Outcome.RealsFinite, exprs, or_imp, forall_and]

theorem givesIf_toJson (p : Partition) : GivesIf (ofJson? p.toJson) p.RealsFinite p := by
  have hreading : ofJson? p.toJson = do
      let pc ← Expr.ofPart? p.pc.toJson
      let v1 ← Outcome.ofJson? p.v1.toJson
      let v2 ← Outcome.ofJson? p.v2.toJson
      return { p with pc, v1, v2 } := by
    simp [-Option.bind_eq_bind, some_bind, ofJson?, toJson, Json.object?, Json.field?,
      Json.valuesOf, Json.uint32?_toNat, Expr.ofJson?_toJson, Json.fieldOr, Json.optionalField?,
      Json.bool?]
  rw [hreading, realsFinite_iff]
  exact p.pc.givesIf_toJson.bind (p.v1.givesIf_toJson.bind
    (p.v2.givesIf_toJson.bind_pure fun v2 => { p with v2 }))

end Partition

/-! ## Traces -/

namespace TraceEntry

/-- All real constants of the entry are finite. -/
def RealsFinite (entry : TraceEntry) : Prop := ∀ p ∈ entry.partitions, p.RealsFinite

theorem givesIf_toJson (entry : TraceEntry) :
    GivesIf (ofJson? entry.toJson) entry.RealsFinite entry := by
  have hsummary : Json.listOf? AbstractedUnit.ofJson?
      (.array (entry.summary.map AbstractedUnit.toJson)) = some entry.summary :=
    (Json.givesIf_listOf? (P := fun _ => True) (fun u v => by simp [u.ofJson?_toJson])
      entry.summary).eq_some fun _ _ => trivial
  have hreading : ofJson? entry.toJson = do
      let partitions ← Json.listOf? Partition.ofJson?
        (.array (entry.partitions.map Partition.toJson))
      return { entry with partitions } := by
    simp [-Option.bind_eq_bind, some_bind, ofJson?, toJson, Json.object?, Json.valuesOf,
      Json.fieldOr, Json.optionalField?, Json.names?_ofNames, hsummary]
  rw [hreading]
  exact (Json.givesIf_listOf? Partition.givesIf_toJson entry.partitions).bind_pure
    fun partitions => { entry with partitions }

end TraceEntry

namespace Trace

/-- All real constants of the trace are finite. -/
def RealsFinite (t : Trace) : Prop := ∀ entry ∈ t.entries, entry.RealsFinite

theorem givesIf_toJson (t : Trace) : GivesIf (ofJson? t.toJson) t.RealsFinite t :=
  (Json.givesIf_listOf? TraceEntry.givesIf_toJson t.entries).bind_pure Trace.mk

end Trace

/-- What is read from the value of a trace is the trace, with all its bits and locations, if its
reals are finite; of a trace with another real, nothing is read. An integer and a real are never
taken for each other, equal as they may be as numbers. -/
theorem traces_survive :
    (∀ t u : Trace, Trace.ofJson? t.toJson = some u ↔ t.RealsFinite ∧ t = u) ∧
      ∀ (v : Int64) (x : Binary64),
        Constant.ofJson? (Constant.int v).toJson ≠ some (.real x) ∧
          Constant.ofJson? (Constant.real x).toJson ≠ some (.int v) := by
  refine ⟨Trace.givesIf_toJson, fun v x => ⟨fun h => ?_, fun h => ?_⟩⟩
  · cases ((Constant.int v).givesIf_toJson _).mp h with
    | intro _ heq => cases heq
  · cases ((Constant.real x).givesIf_toJson _).mp h with
    | intro _ heq => cases heq

/-- The negative zero and the location of the comparison are read back. -/
theorem traces_survive_negativeZero :
    let pc := Expr.binary .lt (.var "x" .real) (.real (.ofMagnitude true 0))
      (some { filePath := "A.java", className := "A", methodName := "f", lineNumber := 3,
              choice := some 1 })
    let p : Partition :=
      { index := 1, pc, v1 := .raised "E", v2 := .symbolic (.uif "g" .int [.int (-1)]) }
    let t : Trace := { entries := [{ expanded := .ofList ["g"], partitions := [p] }] }
    Trace.ofJson? t.toJson = some t := by
  intro pc p t
  have hzero : (Binary64.ofMagnitude true 0).isFinite := by decide
  have hreals : t.RealsFinite := by
    simp [t, p, pc, Trace.RealsFinite, TraceEntry.RealsFinite, Partition.realsFinite_iff,
      Outcome.RealsFinite, Outcome.expr?, Expr.real, Expr.int, Expr.realsFinite_binary,
      Expr.realsFinite_var, Expr.realsFinite_const, Expr.realsFinite_uif, hzero]
  exact (traces_survive.1 t t).mpr ⟨hreals, rfl⟩

end Regression
