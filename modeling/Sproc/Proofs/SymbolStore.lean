import Sproc.Proofs.Variables

/-!
# Three containers in step

The variables of a procedure are kept in a map, in a list of keys and in a set of Go names, which a
declaration changes one after the other. Whatever the calls are, the three stay in step: they hold
the variables of one list, in the order of the declarations, and answer as this list does. A
declaration that is refused has not come to the first change. The search for a number has no bound of
its own: it ends because each variable stands in the way of one number, and the number of tries in
`SymbolStore.firstFree` cuts no search short.

## Main definitions

* `SymbolStore.Searches`: the search for a number, without a bound
* `SymbolStore.Holds`: the containers hold the variables of a table
* `SymbolStore.performAll`, `SymbolStore.declared`, `SymbolStore.Declares`: calls, what they declare,
  and where
* `SymbolStore.InStep`: what holds of the containers behind calls

## Main results

* `SymbolStore.execute_declare`: a declaration, step after step
* `SymbolStore.Holds.perform`, `SymbolStore.Holds.performAll`: calls keep the containers in step with
  the table
* `SymbolStore.inStep_performAll`
-/

namespace Sproc

open Lower

/-! ## Steps -/

namespace StoreStep

variable {α β : Type} {store : SymbolStore}

theorem execute_pure (value : α) : (pure value : StoreStep α).execute store = (.ok value, store) :=
  rfl

theorem execute_bind (step : StoreStep α) (next : α → StoreStep β) :
    (step >>= next).execute store =
      match step.execute store with
      | (.ok value, middle) => (next value).execute middle
      | (.error fault, middle) => (.error fault, middle) := by
  simp only [execute, bind, ExceptT.bind, ExceptT.run, ExceptT.mk, StateT.bind, StateT.run]
  rcases step store with ⟨outcome, middle⟩
  cases outcome <;> rfl

theorem execute_get : (get : StoreStep SymbolStore).execute store = (.ok store, store) :=
  rfl

end StoreStep

namespace SymbolStore

variable {store start : SymbolStore} {table : SymbolTable} {name type spelling : String}
  {kind : SymbolKind} {symbol other : Symbol} {call : SymbolCall}
  {calls later front front' : List SymbolCall}

/-- A name is kept from being taken, and nothing else changes. -/
theorem execute_reserve (store : SymbolStore) (name : String) :
    (reserve name).execute store =
      (.ok (), { store with reserved := store.reserved.insert name }) :=
  rfl

/-- A declaration stops for a name that is known and for a type that is not, in front of all changes.
Otherwise all three containers change. -/
theorem execute_declare (store : SymbolStore) (name type : String) (kind : SymbolKind) :
    (declare name type kind).execute store =
      if store.contains name then (.error (.duplicateVariable name), store) else
        match TypeName.classify type with
        | .error fault => (.error fault, store)
        | .ok info =>
          let symbol : Symbol := ⟨name, store.freshGoName name, info, kind⟩
          let symbols := store.symbols.insertIfNew (foldName name) symbol
          (.ok (symbols.getD (foldName name) symbol),
            { store with
              symbols
              order := store.order ++ [foldName name]
              taken := store.taken.insert (store.freshGoName name) }) := by
  unfold declare contains
  simp only [StoreStep.execute_bind, StoreStep.execute_get]
  split
  · rfl
  · simp only [StoreStep.execute_bind, StoreStep.execute_pure]
    cases TypeName.classify type <;> rfl

/-- The search for a number that makes a name free goes from a number to the number it ends with. It
only ends where such a number is met. -/
inductive Searches (store : SymbolStore) (base : String) : Nat → Nat → Prop
  | found {n : Nat} : store.isTaken (base ++ toString n) = false → Searches store base n n
  | again {n result : Nat} : store.isTaken (base ++ toString n) = true →
    Searches store base (n + 1) result → Searches store base n result

/-! ## One list for three containers -/

/-- The containers hold the variables of a table, in their order. -/
structure Holds (store : SymbolStore) (table : SymbolTable) : Prop where
  order : store.order = table.symbols.map (·.key)
  symbols : ∀ key, store.symbols[key]? = table.symbols.find? (·.key == key)
  size : store.symbols.size = table.symbols.length
  nodup_key : (table.symbols.map (·.key)).Nodup
  isTaken : ∀ goName, store.isTaken goName = table.isTaken goName
  reserved : ∀ name, store.reserved.contains name = table.reserved.contains name

namespace Holds

theorem get? (h : store.Holds table) (name : String) : store.get? name = table.get? name :=
  h.symbols _

theorem contains (h : store.Holds table) (name : String) :
    store.contains name = table.contains name := by
  rw [SymbolStore.contains, ← Std.HashMap.isSome_getElem?_eq_contains]
  exact congrArg Option.isSome (h.get? name)

theorem lookup (h : store.Holds table) (name : String) : store.lookup name = table.lookup name := by
  cases hget : table.get? name <;> simp [SymbolStore.lookup, SymbolTable.lookup, h.get?, hget]

/-- The keys in their order lead to the variables in their order. -/
theorem inOrder (h : store.Holds table) : store.inOrder = table.symbols := by
  have hfound (symbol : Symbol) (hmem : symbol ∈ table.symbols) :
      store.symbols[symbol.key]? = some symbol := by
    rw [h.symbols]
    exact SymbolTable.find?_of_nodup h.nodup_key hmem
  calc
    store.inOrder
    _ = table.symbols.filterMap fun symbol => store.symbols[symbol.key]? := by
      rw [SymbolStore.inOrder, h.order, List.filterMap_map]
      rfl
    _ = table.symbols.filterMap some := List.filterMap_congr hfound
    _ = table.symbols := List.filterMap_some

/-- The search for a number ends with the least one that makes the name free, and the number of
tries is enough for it, by induction on how far it is from there. -/
theorem searches (h : store.Holds table) {base : String} {n : Nat} (hn : table.FirstFree base n) :
    store.Searches base 2 n ∧ store.firstFree base (store.order.length + 1) 2 = some n := by
  have hsearch (k m tries : Nat) (htwo : 2 ≤ m) (hm : m + k = n) (htries : k < tries) :
      store.Searches base m n ∧ store.firstFree base tries m = some n := by
    induction k generalizing m tries with
    | zero =>
      obtain ⟨tries, rfl⟩ := Nat.exists_eq_succ_of_ne_zero (Nat.ne_of_gt htries)
      obtain rfl : m = n := hm
      have hfree : store.isTaken (base ++ toString m) = false := (h.isTaken _).trans hn.free
      exact ⟨.found hfree, by rw [firstFree, hfree]; rfl⟩
    | succ k ih =>
      obtain ⟨tries, rfl⟩ := Nat.exists_eq_succ_of_ne_zero (Nat.ne_of_gt (Nat.zero_lt_of_lt htries))
      have htaken : store.isTaken (base ++ toString m) = true :=
        (h.isTaken _).trans (hn.least m htwo (by omega))
      obtain ⟨hrest, heq⟩ := ih (m + 1) tries (by omega) (by omega) (by omega)
      exact ⟨.again htaken hrest, by rw [firstFree, htaken]; exact heq⟩
  have hle := hn.le
  have htwo := hn.two_le
  have hlength : store.order.length = table.symbols.length := by rw [h.order, List.length_map]
  exact hsearch (n - 2) 2 _ (Nat.le_refl 2) (by omega) (by omega)

theorem freshGoName (h : store.Holds table) (name : String) :
    store.freshGoName name = table.freshGoName name := by
  unfold SymbolStore.freshGoName
  dsimp only
  rw [h.reserved, ← SymbolTable.goBase, h.isTaken]
  cases htaken : table.isTaken (table.goBase name) with
  | false => exact (SymbolTable.freshGoName_of_free htaken).symm
  | true =>
    obtain ⟨n, hn, heq⟩ := SymbolTable.exists_firstFree htaken
    rw [heq, (h.searches hn).2]
    rfl

theorem reserve (h : store.Holds table) (name : String) :
    Holds { store with reserved := store.reserved.insert name } (table.reserve name) := by
  refine ⟨h.order, h.symbols, h.size, h.nodup_key, h.isTaken, fun other => ?_⟩
  have hinsert : (store.reserved.insert name).contains other =
      (name == other || table.reserved.contains other) := by
    rw [Std.HashSet.contains_insert, h.reserved]
  simp [SymbolTable.reserve, hinsert, beq_eq_decide, Bool.or_comm, eq_comm]

/-- A variable with a new key goes into all three containers. -/
theorem insert (h : store.Holds table) (symbol : Symbol)
    (hnew : table.contains symbol.source = false) :
    Holds { store with
      symbols := store.symbols.insertIfNew symbol.key symbol
      order := store.order ++ [symbol.key]
      taken := store.taken.insert symbol.goName }
      { table with symbols := table.symbols ++ [symbol] } := by
  have habsent : table.symbols.find? (·.key == symbol.key) = none :=
    Option.isNone_iff_eq_none.mp (Option.isSome_eq_false_iff.mp hnew)
  have hmem : symbol.key ∉ store.symbols := by
    rw [Std.HashMap.mem_iff_isSome_getElem?, h.symbols, habsent]
    exact Bool.false_ne_true
  constructor
  case order => simp [h.order]
  case symbols =>
    intro key
    rw [Std.HashMap.getElem?_insertIfNew, List.find?_append, h.symbols]
    by_cases hkey : symbol.key = key
    · subst hkey
      simp [hmem, habsent]
    · simp [hkey]
  case size =>
    rw [Std.HashMap.size_insertIfNew, if_neg hmem, h.size, List.length_append]
    rfl
  case nodup_key =>
    rw [List.map_append, List.nodup_append]
    refine ⟨h.nodup_key, List.pairwise_singleton _ _, ?_⟩
    rintro key hkey other hother rfl
    obtain rfl := List.mem_singleton.mp hother
    obtain ⟨known, hknown, heq⟩ := List.mem_map.mp hkey
    exact absurd heq (by simpa using List.find?_eq_none.mp habsent known hknown)
  case isTaken =>
    intro goName
    have htaken := h.isTaken goName
    simp only [SymbolStore.isTaken, SymbolTable.isTaken] at htaken ⊢
    simp [Std.HashSet.contains_insert, htaken, Bool.or_comm]
  case reserved => exact h.reserved

/-- A declaration is answered as the table answers it. The containers stay in step, and if the
declaration is refused, they stay as they are. -/
theorem declare (h : store.Holds table) (name type : String) (kind : SymbolKind) :
    match table.declare name type kind with
    | .error fault => (declare name type kind).execute store = (.error fault, store)
    | .ok (symbol, next) => ∃ after,
        (declare name type kind).execute store = (.ok symbol, after) ∧ after.Holds next := by
  rw [execute_declare, h.contains, h.freshGoName, SymbolTable.declare]
  cases hknown : table.contains name with
  | true => rfl
  | false =>
    cases hinfo : TypeName.classify type with
    | error fault => rfl
    | ok info =>
      let symbol : Symbol := ⟨name, table.freshGoName name, info, kind⟩
      have hholds := h.insert symbol hknown
      have hself : (store.symbols.insertIfNew symbol.key symbol).getD symbol.key symbol = symbol := by
        rw [Std.HashMap.getD_eq_getD_getElem?, hholds.symbols,
          SymbolTable.find?_of_nodup hholds.nodup_key (List.mem_append_right _ (.head _))]
        rfl
      exact ⟨_, congrArg (fun found => (Except.ok found, _)) hself, hholds⟩

end Holds

/-- Containers without variables hold the empty table. -/
theorem holds_keeping (names : List String) : (keeping names).Holds (.keeping names) where
  order := rfl
  symbols key := by simp [keeping, SymbolTable.keeping]
  size := by simp [keeping, SymbolTable.keeping]
  nodup_key := List.nodup_nil
  isTaken goName := by simp [keeping, SymbolTable.keeping, isTaken, SymbolTable.isTaken]
  reserved name := by simp [keeping, SymbolTable.keeping]

/-! ## Calls -/

/-- The containers behind a call, whatever becomes of it. -/
def perform (store : SymbolStore) (call : SymbolCall) : SymbolStore :=
  (call.run.execute store).2

/-- The containers behind some calls. -/
def performAll (store : SymbolStore) (calls : List SymbolCall) : SymbolStore :=
  calls.foldl perform store

/-- The variable that a call returns, if it declares one. -/
def answer? (store : SymbolStore) (call : SymbolCall) : Option Symbol :=
  (call.run.execute store).1.toOption.join

/-- The variables that some calls return, in the order of the calls. -/
def declared (store : SymbolStore) : List SymbolCall → List Symbol
  | [] => []
  | call :: rest => (store.answer? call).toList ++ (store.perform call).declared rest

/-- Among some calls, the one behind those in front is a declaration that succeeds. -/
def Declares (start : SymbolStore) (calls front : List SymbolCall) (symbol : Symbol) : Prop :=
  ∃ name type kind back, calls = front ++ .declare name type kind :: back ∧
    ((declare name type kind).execute (start.performAll front)).1 = .ok symbol

namespace Holds

/-- A call returns what it returns for the table, and keeps the containers in step with it. -/
theorem perform (h : store.Holds table) (call : SymbolCall) :
    store.answer? call = table.answer? call ∧ (store.perform call).Holds (table.perform call) := by
  cases call with
  | reserve name => exact ⟨rfl, h.reserve name⟩
  | declare name type kind =>
    have hdeclare := h.declare name type kind
    simp only [answer?, SymbolStore.perform, SymbolCall.run, map_eq_pure_bind,
      StoreStep.execute_bind, SymbolTable.answer?, SymbolTable.perform]
    cases hresult : table.declare name type kind with
    | error fault =>
      rw [hresult] at hdeclare
      rw [hdeclare]
      exact ⟨rfl, h⟩
    | ok result =>
      rw [hresult] at hdeclare
      obtain ⟨after, hrun, hafter⟩ := hdeclare
      rw [hrun]
      exact ⟨rfl, hafter⟩

theorem performAll (h : store.Holds table) (calls : List SymbolCall) :
    (store.performAll calls).Holds (table.performAll calls) := by
  induction calls generalizing store table with
  | nil => exact h
  | cons call rest ih => exact ih (h.perform call).2

theorem declared (h : store.Holds table) (calls : List SymbolCall) :
    store.declared calls = table.declared calls := by
  induction calls generalizing store table with
  | nil => rfl
  | cons call rest ih =>
    rw [SymbolStore.declared, SymbolTable.declared, (h.perform call).1, ih (h.perform call).2]

/-- A declaration succeeds with a variable exactly where it does so for the table. -/
theorem declare_eq_ok_iff (h : store.Holds table) :
    ((SymbolStore.declare name type kind).execute store).1 = .ok symbol ↔
      ∃ next, table.declare name type kind = .ok (symbol, next) := by
  have hdeclare := h.declare name type kind
  cases hresult : table.declare name type kind with
  | error fault =>
    rw [hresult] at hdeclare
    simp [hdeclare]
  | ok result =>
    rw [hresult] at hdeclare
    obtain ⟨after, hrun, -⟩ := hdeclare
    simp [hrun, Prod.ext_iff]

theorem declares_iff (h : store.Holds table) :
    store.Declares calls front symbol ↔ table.Declares calls front symbol := by
  simp only [Declares, SymbolTable.Declares, (h.performAll front).declare_eq_ok_iff]
  constructor
  · rintro ⟨name, type, kind, back, hcalls, next, hdeclare⟩
    exact ⟨name, type, kind, next, back, hcalls, hdeclare⟩
  · rintro ⟨name, type, kind, next, back, hcalls, hdeclare⟩
    exact ⟨name, type, kind, back, hcalls, next, hdeclare⟩

end Holds

/-- What holds of containers that start without variables, behind some calls. -/
structure InStep (names : List String) (calls : List SymbolCall) (store : SymbolStore) : Prop where
  /-- The containers hold what one list would hold. -/
  held : store.Holds ((SymbolTable.keeping names).performAll calls)
  /-- The variables are those that the declarations returned, in the order of the calls. -/
  inOrder : store.inOrder = (keeping names).declared calls
  /-- Each of them has one key, its own. -/
  order : store.order = ((keeping names).declared calls).map (·.key)
  size : store.symbols.size = ((keeping names).declared calls).length
  isTaken_iff : ∀ goName, store.isTaken goName = true ↔
    goName ∈ ((keeping names).declared calls).map (·.goName)
  reserved_iff : ∀ name, name ∈ store.reserved ↔
    name ∈ names ++ calls.filterMap SymbolCall.reserved?
  nodup_goName : (((keeping names).declared calls).map (·.goName)).Nodup
  /-- The search for a number ends, with the least one that makes the name free, and a declaration
  goes on with this number. -/
  search : ∀ base, ∃ n, store.Searches base 2 n ∧
    store.firstFree base (store.order.length + 1) 2 = some n ∧ 2 ≤ n ∧
    store.isTaken (base ++ toString n) = false ∧
    ∀ m, 2 ≤ m → m < n → store.isTaken (base ++ toString m) = true
  /-- A name refers to what a successful declaration with its key has returned. -/
  get?_iff : ∀ spelling symbol, store.get? spelling = some symbol ↔
    ∃ front, (keeping names).Declares calls front symbol ∧ foldName spelling = symbol.key
  /-- One declaration succeeds for a key. -/
  once : ∀ front front' symbol other, (keeping names).Declares calls front symbol →
    (keeping names).Declares calls front' other → symbol.key = other.key →
    front = front' ∧ symbol = other
  lookup_iff : ∀ spelling symbol,
    store.lookup spelling = .ok symbol ↔ store.get? spelling = some symbol
  kept : ∀ later spelling symbol, store.get? spelling = some symbol →
    (store.performAll later).get? spelling = some symbol
  /-- A declaration is refused for a name that is known, and else for a type that is not. -/
  refused_iff : ∀ name type kind fault,
    ((declare name type kind).execute store).1 = .error fault ↔
      (store.contains name = true ∧ fault = .duplicateVariable name) ∨
        (store.contains name = false ∧ TypeName.classify type = .error fault)
  /-- A declaration that is refused changes nothing. -/
  unchanged : ∀ name type kind fault after,
    (declare name type kind).execute store = (.error fault, after) → after = store
  /-- A generation that keeps the variables in one list declares the same ones and is refused where
  the containers refuse, and then its progress is unchanged, too. -/
  generation : ∀ name type kind c p, store.Holds p.symbols →
    (∀ symbol after, (Lower.declare name type kind).Runs c p symbol after →
      ∃ store', (declare name type kind).execute store = (.ok symbol, store') ∧
        store'.Holds after.symbols) ∧
    (∀ error after, (Lower.declare name type kind).Fails c p error after →
      (declare name type kind).execute store = (.error error.fault, store) ∧ after = p)

/-- The three containers stay in step, whatever the calls are and whatever names are kept from being
taken at the start. -/
theorem inStep_performAll (names : List String) (calls : List SymbolCall) :
    InStep names calls ((keeping names).performAll calls) := by
  have hheld := (holds_keeping names).performAll calls
  generalize hstore : (keeping names).performAll calls = store at hheld
  have hdeclared : (keeping names).declared calls = (SymbolTable.keeping names).declared calls :=
    (holds_keeping names).declared calls
  have hsymbols : ((SymbolTable.keeping names).performAll calls).symbols =
      (keeping names).declared calls :=
    SymbolTable.symbols_performAll.trans hdeclared.symm
  have hnodup : (((SymbolTable.keeping names).performAll calls).symbols.map (·.goName)).Nodup := by
    have hstart : ((SymbolTable.keeping names).symbols.map (·.goName)).Nodup := List.nodup_nil
    exact SymbolTable.performAll_induction hstart (fun _ _ h => h)
      (fun _ _ _ _ _ _ h hdeclare => SymbolTable.nodup_goName_declare h hdeclare) calls
  have hget (later : List SymbolCall) (spelling : String) :
      (store.performAll later).get? spelling =
        (((SymbolTable.keeping names).performAll calls).performAll later).get? spelling :=
    (hheld.performAll later).get? spelling
  constructor
  case held => exact hheld
  case inOrder => exact hheld.inOrder.trans hsymbols
  case order => rw [hheld.order, hsymbols]
  case size => rw [hheld.size, hsymbols]
  case isTaken_iff =>
    intro goName
    rw [hheld.isTaken, ← hsymbols]
    simp [SymbolTable.isTaken]
  case reserved_iff =>
    intro name
    rw [← Std.HashSet.contains_iff_mem, hheld.reserved, SymbolTable.reserved_performAll,
      List.contains_iff_mem]
    rfl
  case nodup_goName => rwa [← hsymbols]
  case search =>
    intro base
    obtain ⟨n, hn⟩ := SymbolTable.exists_least_free _ base
    obtain ⟨hends, hfirst⟩ := hheld.searches hn
    refine ⟨n, hends, hfirst, hn.two_le, ?_, fun m htwo hlt => ?_⟩
    · rw [hheld.isTaken, hn.free]
    · rw [hheld.isTaken, hn.least m htwo hlt]
  case get?_iff =>
    intro spelling symbol
    rw [hheld.get?]
    simp only [(holds_keeping names).declares_iff]
    exact SymbolTable.get?_performAll_iff
  case once =>
    intro front front' symbol other h h' hkey
    rw [(holds_keeping names).declares_iff] at h h'
    exact h.unique h' hkey
  case lookup_iff =>
    intro spelling symbol
    rw [hheld.lookup, hheld.get?]
    exact SymbolTable.lookup_eq_ok_iff
  case kept =>
    intro later spelling symbol hfound
    rw [hheld.get?] at hfound
    rw [hget]
    exact SymbolTable.get?_performAll hfound
  case refused_iff =>
    intro name type kind fault
    rw [execute_declare]
    cases store.contains name with
    | true => simp [eq_comm]
    | false => cases TypeName.classify type <;> simp
  case unchanged =>
    intro name type kind fault after hrun
    rw [execute_declare] at hrun
    cases hknown : store.contains name with
    | true => simp_all
    | false => cases hinfo : TypeName.classify type <;> simp_all
  case generation =>
    intro name type kind c p hholds
    have hdeclare := hholds.declare name type kind
    refine ⟨fun symbol after hruns => ?_, fun error after hfails => ?_⟩
    · obtain ⟨symbols, hresult, rfl⟩ := runs_declare.mp hruns
      rw [hresult] at hdeclare
      obtain ⟨store', hrun, hafter⟩ := hdeclare
      exact ⟨store', hrun, hafter⟩
    · obtain ⟨fault, hresult, rfl, rfl⟩ := fails_declare.mp hfails
      rw [hresult] at hdeclare
      exact ⟨hdeclare, rfl⟩

end SymbolStore

end Sproc
