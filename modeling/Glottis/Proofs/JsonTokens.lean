import Mathlib
import Glottis.Json.Value

/-!
# The tokens of a JSON value

Every value has one list of tokens, and it is the only list from which the machine builds
that value.  What the machine has read is recorded for each of its states, so a step adds
one token to the record; a complete value moves the machine from waiting for it to having
been supplied with it, whatever is still open around it.
-/

namespace Glottis.Json

mutual

def Value.tokens : Value → List Token
  | .null => [.null]
  | .bool value => [.bool value]
  | .number value => [.number value]
  | .string text => [.string text]
  | .array [] => [.openArray, .closeArray]
  | .array (item :: items) => .openArray :: (item.tokens ++ laterItems items)
  | .object [] => [.openObject, .closeObject]
  | .object ((name, value) :: members) =>
      .openObject :: .string name :: .colon :: (value.tokens ++ laterMembers members)

/-- The tokens from behind an item to the end of its array. -/
def laterItems : List Value → List Token
  | [] => [.closeArray]
  | item :: items => .comma :: (item.tokens ++ laterItems items)

def laterMembers : List Member → List Token
  | [] => [.closeObject]
  | (name, value) :: members =>
      .comma :: .string name :: .colon :: (value.tokens ++ laterMembers members)

end

/-! ## What has been read -/

/-- The tokens up to where the next item of an array begins, the items in reverse order. -/
def itemsRead : List Value → List Token
  | [] => [.openArray]
  | item :: done => itemsRead done ++ item.tokens ++ [.comma]

def membersRead : List Member → List Token
  | [] => [.openObject]
  | (name, value) :: done =>
      membersRead done ++ .string name :: .colon :: (value.tokens ++ [.comma])

/-- The tokens up to where the value begins for which some arrays and objects wait. -/
def framesRead : List Frame → List Token
  | [] => []
  | .array done :: stack => framesRead stack ++ itemsRead done
  | .object done name :: stack =>
      framesRead stack ++ membersRead done ++ [.string name, .colon]

/-- The tokens that have been read when the machine is in a state. -/
inductive State.Reads : State → List Token → Prop
  | value {stack} : (State.value stack).Reads (framesRead stack)
  | firstItem {stack} : (State.firstItem stack).Reads (framesRead stack ++ [.openArray])
  | firstName {stack} : (State.firstName stack).Reads (framesRead stack ++ [.openObject])
  | name {done stack} : (State.name done stack).Reads (framesRead stack ++ membersRead done)
  | colon {name done stack} :
      (State.colon name done stack).Reads (framesRead stack ++ membersRead done ++ [.string name])
  | nextItem {item done stack} :
      (State.nextItem (item :: done) stack).Reads
        (framesRead stack ++ itemsRead done ++ item.tokens)
  | nextMember {name value done stack} :
      (State.nextMember ((name, value) :: done) stack).Reads
        (framesRead stack ++ membersRead done ++ .string name :: .colon :: value.tokens)
  | finished {value} : (State.finished value).Reads value.tokens

theorem itemsRead_append_laterItems (item : Value) (done items : List Value) :
    itemsRead done ++ item.tokens ++ laterItems items =
      (Value.array ((item :: done).reverse ++ items)).tokens := by
  induction done generalizing item items with
  | nil => simp [itemsRead, Value.tokens]
  | cons before done ih =>
      have hrest := ih before (item :: items)
      simp_all [itemsRead, laterItems]

theorem membersRead_append_laterMembers (name : Option String) (value : Value)
    (done members : List Member) :
    membersRead done ++ .string name :: .colon :: (value.tokens ++ laterMembers members) =
      (Value.object (((name, value) :: done).reverse ++ members)).tokens := by
  induction done generalizing name value members with
  | nil => simp [membersRead, Value.tokens]
  | cons before done ih =>
      have hrest := ih before.1 before.2 ((name, value) :: members)
      simp_all [membersRead, laterMembers]

theorem reads_supply (value : Value) (stack : List Frame) :
    (supply value stack).Reads (framesRead stack ++ value.tokens) := by
  match stack with
  | [] => exact .finished
  | .array done :: stack => exact .nextItem
  | .object done name :: stack =>
      have hread := @State.Reads.nextMember name value done stack
      simpa [framesRead, supply] using hread

theorem reads_of_beginValue (stack : List Frame) {token : Token} {state : State}
    (hbegin : beginValue stack token = some state) :
    state.Reads (framesRead stack ++ [token]) := by
  cases token <;> simp only [beginValue, Option.some.injEq, reduceCtorEq] at hbegin <;> subst hbegin
  case openObject => exact .firstName
  case openArray => exact .firstItem
  case null => exact reads_supply .null stack
  case bool value => exact reads_supply (.bool value) stack
  case number value => exact reads_supply (.number value) stack
  case string text => exact reads_supply (.string text) stack

/-- A step of the machine reads its token. -/
theorem State.Reads.step {state next : State} {tokens : List Token} {token : Token}
    (hreads : state.Reads tokens) (hstep : Json.step state token = some next) :
    next.Reads (tokens ++ [token]) := by
  cases hreads with
  | @value stack => exact reads_of_beginValue stack hstep
  | @firstItem stack =>
      cases token with
      | closeArray =>
          obtain rfl : supply (.array []) stack = next := by simpa [Json.step] using hstep
          simpa [Value.tokens] using reads_supply (.array []) stack
      | _ => exact reads_of_beginValue (.array [] :: stack) hstep
  | @firstName stack =>
      cases token <;> simp only [Json.step, Option.some.injEq, reduceCtorEq] at hstep <;>
        subst hstep
      case closeObject => simpa [Value.tokens] using reads_supply (.object []) stack
      case string text => exact .colon
  | @name done stack =>
      cases token <;> simp only [Json.step, Option.some.injEq, reduceCtorEq] at hstep
      subst hstep
      case string text => exact .colon
  | @colon name done stack =>
      cases token <;> simp only [Json.step, Option.some.injEq, reduceCtorEq] at hstep
      subst hstep
      case colon =>
        have hread := @State.Reads.value (.object done name :: stack)
        simpa [framesRead] using hread
  | @nextItem item done stack =>
      cases token <;> simp only [Json.step, Option.some.injEq, reduceCtorEq] at hstep <;>
        subst hstep
      case comma =>
        have hread := @State.Reads.value (.array (item :: done) :: stack)
        simpa [framesRead, itemsRead] using hread
      case closeArray =>
        have hread := reads_supply (.array (item :: done).reverse) stack
        have htokens := itemsRead_append_laterItems item done []
        simp_all [laterItems]
  | @nextMember name value done stack =>
      cases token <;> simp only [Json.step, Option.some.injEq, reduceCtorEq] at hstep <;>
        subst hstep
      case comma =>
        have hread := @State.Reads.name ((name, value) :: done) stack
        simpa [membersRead] using hread
      case closeObject =>
        have hread := reads_supply (.object ((name, value) :: done).reverse) stack
        have htokens := membersRead_append_laterMembers name value done []
        simp_all [laterMembers]
  | finished => simp [Json.step] at hstep

/-- A run of the machine reads its tokens. -/
theorem State.Reads.run {state last : State} {tokens more : List Token}
    (hreads : state.Reads tokens) (hrun : more.foldlM Json.step state = some last) :
    last.Reads (tokens ++ more) := by
  induction more generalizing state tokens with
  | nil =>
      obtain rfl : state = last := by simpa using hrun
      rwa [List.append_nil]
  | cons token more ih =>
      obtain ⟨next, hstep, hrest⟩ : ∃ next, Json.step state token = some next ∧
          more.foldlM Json.step next = some last := by
        simpa [Option.bind_eq_some_iff] using hrun
      simpa using ih (hreads.step hstep) hrest

/-! ## Reading a value -/

/-- No value begins with the end of an array. -/
theorem Value.exists_tokens_eq_cons (value : Value) :
    ∃ token rest, value.tokens = token :: rest ∧ token ≠ .closeArray := by
  match value with
  | .null | .bool _ | .number _ | .string _ | .array [] | .array (_ :: _) | .object []
  | .object (_ :: _) => exact ⟨_, _, by rw [Value.tokens], by simp⟩

/-- Before its first item, an array waits for a value or for its end. -/
theorem foldlM_step_firstItem (value : Value) (stack : List Frame) :
    value.tokens.foldlM step (.firstItem stack) =
      value.tokens.foldlM step (.value (.array [] :: stack)) := by
  obtain ⟨token, later, htokens, hopen⟩ := value.exists_tokens_eq_cons
  rw [htokens, List.foldlM_cons, List.foldlM_cons]
  cases token <;> first | rfl | contradiction

theorem supply_array (value : Value) (done : List Value) (stack : List Frame) :
    supply value (.array done :: stack) = .nextItem (value :: done) stack := rfl

theorem supply_object (value : Value) (done : List Member) (name : Option String)
    (stack : List Frame) :
    supply value (.object done name :: stack) = .nextMember ((name, value) :: done) stack := rfl

mutual

/-- The tokens of a value supply it where a value is waited for. -/
theorem Value.foldlM_step_tokens (value : Value) (stack : List Frame) :
    value.tokens.foldlM step (.value stack) = some (supply value stack) := by
  match value with
  | .null | .bool _ | .number _ | .string _ | .array [] | .object [] =>
      simp [Value.tokens, step, beginValue]
  | .array (item :: items) =>
      have hitem := item.foldlM_step_tokens (.array [] :: stack)
      have hitems := foldlM_step_laterItems items [item] stack
      simp [Value.tokens, step, beginValue, foldlM_step_firstItem, hitem, supply_array, hitems]
  | .object ((name, value) :: members) =>
      have hvalue := value.foldlM_step_tokens (.object [] name :: stack)
      have hmembers := foldlM_step_laterMembers members [(name, value)] stack
      simp [Value.tokens, step, beginValue, hvalue, supply_object, hmembers]

theorem foldlM_step_laterItems (items done : List Value) (stack : List Frame) :
    (laterItems items).foldlM step (.nextItem done stack) =
      some (supply (.array (done.reverse ++ items)) stack) := by
  match items with
  | [] => simp [laterItems, step]
  | item :: items =>
      have hitem := item.foldlM_step_tokens (.array done :: stack)
      have hitems := foldlM_step_laterItems items (item :: done) stack
      simp [laterItems, step, hitem, supply_array, hitems]

theorem foldlM_step_laterMembers (members done : List Member) (stack : List Frame) :
    (laterMembers members).foldlM step (.nextMember done stack) =
      some (supply (.object (done.reverse ++ members)) stack) := by
  match members with
  | [] => simp [laterMembers, step]
  | (name, value) :: members =>
      have hvalue := value.foldlM_step_tokens (.object done name :: stack)
      have hmembers := foldlM_step_laterMembers members ((name, value) :: done) stack
      simp [laterMembers, step, hvalue, supply_object, hmembers]

end

/-- Tokens make a value exactly if they are its tokens. -/
theorem ofTokens?_eq_some_iff {tokens : List Token} {value : Value} :
    ofTokens? tokens = some value ↔ tokens = value.tokens := by
  constructor
  · intro htokens
    have hrun : tokens.foldlM step (.value []) = some (.finished value) := by
      unfold ofTokens? at htokens
      split at htokens
      case h_1 found hrun => rw [hrun, ← Option.some.inj htokens]
      case h_2 => cases htokens
    have hreads := State.Reads.value.run hrun
    rw [framesRead, List.nil_append] at hreads
    cases hreads
    rfl
  · rintro rfl
    rw [ofTokens?, value.foldlM_step_tokens]
    rfl

end Glottis.Json
