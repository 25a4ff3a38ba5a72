import ResourceHandles.Manifest.Resolution
import Mathlib.Tactic

/-!
# Pairing functions with their flags

Directives have a manifest if and only if no name is declared twice in one kind and the
flag of every function is 0 or 1.  The manifest then takes every directive for exactly
one thing: a function, a listed constant, or the flag of one function.  Directives
without a manifest are refused for a constant before they are refused for a function,
wherever the two stand.
-/

namespace ResourceHandles

variable {constants : List Constant} {functions : List FunctionDecl} {seen : List String}

/-- The flag of a function, if it has one, is 0 or 1. -/
def FlagSound (constants : List Constant) (function : FunctionDecl) : Prop :=
  ∀ value, ⟨flagName function.name, value⟩ ∈ constants → value = 0 ∨ value = 1

/-- The entry of a function in the manifest. -/
structure ListedAs (constants : List Constant) (function : FunctionDecl)
    (signature : Signature) : Prop where
  name : signature.name = function.name
  arity : signature.arity = function.params.length
  suspends : signature.suspends = true ↔ ⟨flagName function.name, 1⟩ ∈ constants
  params : signature.params = function.params
  returns : signature.returns = function.returns

theorem listedAs_iff_eq
    {function : FunctionDecl} {suspends : Bool} {signature : Signature}
    (hsuspends : suspends = true ↔ ⟨flagName function.name, 1⟩ ∈ constants) :
    ListedAs constants function signature ↔
      signature =
        ⟨function.name, function.params.length, suspends, function.params,
          function.returns⟩ := by
  constructor
  · intro hlisted
    have hsame : signature.suspends = suspends := by
      rw [Bool.eq_iff_iff, hlisted.suspends, hsuspends]
    rw [← hlisted.name, ← hlisted.arity, ← hsame, ← hlisted.params, ← hlisted.returns]
  · rintro rfl
    exact ⟨rfl, rfl, hsuspends, rfl, rfl⟩

/-! ## The first repeated name -/

theorem firstRepeatAfter?_eq_none_iff
    {names : List String} :
    firstRepeatAfter? seen names = none ↔ names.Nodup ∧ ∀ name ∈ names, name ∉ seen := by
  induction names generalizing seen with
  | nil => simp [firstRepeatAfter?]
  | cons name rest ih =>
      unfold firstRepeatAfter?
      split
      · next hseen => simp [hseen]
      · next hnew =>
          simp only [ih, List.mem_cons, not_or, List.nodup_cons, forall_eq_or_imp]
          constructor
          · rintro ⟨hrest, hfresh⟩
            have hname : name ∉ rest := fun hmem => (hfresh name hmem).1 rfl
            exact ⟨⟨hname, hrest⟩, hnew, fun other hother => (hfresh other hother).2⟩
          · rintro ⟨⟨hname, hrest⟩, -, hfresh⟩
            refine ⟨hrest, fun other hother => ⟨?_, hfresh other hother⟩⟩
            rintro rfl
            exact hname hother

theorem firstRepeatAfter?_eq_some_iff
    {names : List String} {again : String} :
    firstRepeatAfter? seen names = some again ↔
      ∃ before after, names = before ++ again :: after ∧
        firstRepeatAfter? seen before = none ∧ (again ∈ before ∨ again ∈ seen) := by
  induction names generalizing seen with
  | nil => simp [firstRepeatAfter?]
  | cons name rest ih =>
      rw [firstRepeatAfter?]
      split
      · next hseen =>
          rw [Option.some.injEq]
          constructor
          · rintro rfl
            exact ⟨[], rest, rfl, rfl, Or.inr hseen⟩
          · rintro ⟨before, after, hnames, hfirst, -⟩
            cases before with
            | nil => exact (List.cons.inj hnames).1
            | cons head tail =>
                obtain ⟨rfl, -⟩ := List.cons.inj hnames
                simp [firstRepeatAfter?, hseen] at hfirst
      · next hnew =>
          rw [ih]
          constructor
          · rintro ⟨before, after, rfl, hfirst, hmem⟩
            refine ⟨name :: before, after, rfl, ?_, ?_⟩
            · rw [firstRepeatAfter?, if_neg hnew]
              exact hfirst
            · simp only [List.mem_cons] at hmem ⊢
              tauto
          · rintro ⟨before, after, hnames, hfirst, hmem⟩
            cases before with
            | nil =>
                obtain ⟨rfl, -⟩ := List.cons.inj hnames
                simp [hnew] at hmem
            | cons head tail =>
                obtain ⟨rfl, rfl⟩ := List.cons.inj hnames
                rw [firstRepeatAfter?, if_neg hnew] at hfirst
                refine ⟨tail, after, rfl, hfirst, ?_⟩
                simp only [List.mem_cons] at hmem ⊢
                tauto

theorem firstRepeat?_eq_none_iff
    {names : List String} : firstRepeat? names = none ↔ names.Nodup := by
  simp [firstRepeat?, firstRepeatAfter?_eq_none_iff]

theorem firstRepeat?_eq_some_iff
    {names : List String} {again : String} :
    firstRepeat? names = some again ↔
      ∃ before after, names = before ++ again :: after ∧ before.Nodup ∧ again ∈ before := by
  simp [firstRepeat?, firstRepeatAfter?_eq_some_iff, firstRepeatAfter?_eq_none_iff]

/-! ## The flag of a function -/

theorem valueOf?_eq_some_iff
    (honce : (constants.map Constant.name).Nodup) {name : String} {value : Int} :
    valueOf? constants name = some value ↔ ⟨name, value⟩ ∈ constants := by
  simp only [valueOf?, Option.map_eq_some_iff]
  constructor
  · rintro ⟨⟨found, _⟩, hfound, rfl⟩
    have hname : found = name := by simpa using List.find?_some hfound
    rw [← hname]
    exact List.mem_of_find?_eq_some hfound
  · intro hmem
    cases hfind : constants.find? fun declared => declared.name == name with
    | none => simpa using List.find?_eq_none.mp hfind _ hmem
    | some found =>
        have hname : found.name = name := by simpa using List.find?_some hfind
        have hfound := List.mem_of_find?_eq_some hfind
        rw [List.inj_on_of_nodup_map honce hfound hmem hname]
        exact ⟨_, rfl, rfl⟩

theorem readFlag_eq_ok_iff
    (honce : (constants.map Constant.name).Nodup) {function : FunctionDecl} {suspends : Bool} :
    readFlag constants function.name = .ok suspends ↔
      FlagSound constants function ∧
        (suspends = true ↔ ⟨flagName function.name, 1⟩ ∈ constants) := by
  unfold readFlag FlagSound
  simp only [← valueOf?_eq_some_iff honce]
  cases valueOf? constants (flagName function.name) with
  | none => simp [eq_comm]
  | some value =>
      by_cases hzero : value = 0
      · simp [hzero, eq_comm]
      · by_cases hone : value = 1
        · simp [hone, eq_comm]
        · simp [hzero, hone]

theorem readFlag_eq_error_iff
    (honce : (constants.map Constant.name).Nodup) {function : FunctionDecl}
    {error : ResolveError} :
    readFlag constants function.name = .error error ↔
      ∃ value, ⟨flagName function.name, value⟩ ∈ constants ∧ value ≠ 0 ∧ value ≠ 1 ∧
        error = .badFlag (flagName function.name) value := by
  unfold readFlag
  simp only [← valueOf?_eq_some_iff honce]
  cases valueOf? constants (flagName function.name) with
  | none => simp
  | some value =>
      by_cases hzero : value = 0
      · simp [hzero]
      · by_cases hone : value = 1
        · simp [hone]
        · simp [hzero, hone, eq_comm]

theorem not_flagSound_of_readFlag
    (honce : (constants.map Constant.name).Nodup) {function : FunctionDecl}
    {error : ResolveError} (hread : readFlag constants function.name = .error error) :
    ¬FlagSound constants function := by
  obtain ⟨value, hmem, hzero, hone, -⟩ := (readFlag_eq_error_iff honce).mp hread
  intro hsound
  exact (hsound value hmem).elim hzero hone

/-! ## The functions, one after the other -/

/-- Functions that nothing is wrong with, after others with the names `seen`. -/
structure Admitted (constants : List Constant) (seen : List String)
    (functions : List FunctionDecl) : Prop where
  once : (functions.map FunctionDecl.name).Nodup
  fresh : ∀ function ∈ functions, function.name ∉ seen
  flags : ∀ function ∈ functions, FlagSound constants function

theorem admitted_nil : Admitted constants seen [] := by
  constructor <;> simp

theorem admitted_cons_iff
    {function : FunctionDecl} :
    Admitted constants seen (function :: functions) ↔
      function.name ∉ seen ∧ FlagSound constants function ∧
        Admitted constants (function.name :: seen) functions := by
  constructor
  · rintro ⟨honce, hfresh, hflags⟩
    obtain ⟨hname, hrest⟩ := List.nodup_cons.mp honce
    refine ⟨hfresh function List.mem_cons_self, hflags function List.mem_cons_self, hrest, ?_, ?_⟩
    · intro other hother hmem
      rcases List.mem_cons.mp hmem with hsame | hseen
      · apply hname
        rw [← hsame]
        exact List.mem_map_of_mem hother
      · exact hfresh other (List.mem_cons_of_mem _ hother) hseen
    · exact fun other hother => hflags other (List.mem_cons_of_mem _ hother)
  · rintro ⟨hnew, hflag, honce, hfresh, hflags⟩
    constructor
    · refine List.nodup_cons.mpr ⟨?_, honce⟩
      intro hmem
      obtain ⟨other, hother, hsame⟩ := List.mem_map.mp hmem
      exact hfresh other hother (by simp [hsame])
    · intro other hother
      rcases List.mem_cons.mp hother with rfl | hrest
      · exact hnew
      · exact fun hseen => hfresh other hrest (List.mem_cons_of_mem _ hseen)
    · intro other hother
      rcases List.mem_cons.mp hother with rfl | hrest
      · exact hflag
      · exact hflags other hrest

theorem signaturesAfter_eq_ok_iff
    (honce : (constants.map Constant.name).Nodup) {signatures : List Signature} :
    signaturesAfter constants seen functions = .ok signatures ↔
      Admitted constants seen functions ∧
        List.Forall₂ (ListedAs constants) functions signatures := by
  induction functions generalizing seen signatures with
  | nil => simp [signaturesAfter, admitted_nil, eq_comm]
  | cons function rest ih =>
      rw [admitted_cons_iff, List.forall₂_cons_left_iff, signaturesAfter]
      split
      · next hseen => simp [hseen]
      · next hnew =>
          cases hflag : readFlag constants function.name with
          | error fault => simp [not_flagSound_of_readFlag honce hflag]
          | ok suspends =>
              obtain ⟨hsound, hsuspends⟩ := (readFlag_eq_ok_iff honce).mp hflag
              have hrest :
                  ((function.name ∉ seen ∧ FlagSound constants function ∧
                      Admitted constants (function.name :: seen) rest) ∧
                    ∃ signature others, ListedAs constants function signature ∧
                      List.Forall₂ (ListedAs constants) rest others ∧
                        signatures = signature :: others) ↔
                  ∃ others, signaturesAfter constants (function.name :: seen) rest = .ok others ∧
                    signatures =
                      ⟨function.name, function.params.length, suspends, function.params,
                        function.returns⟩ :: others := by
                constructor
                · rintro ⟨⟨-, -, hadmitted⟩, signature, others, hfirst, hothers, rfl⟩
                  rw [(listedAs_iff_eq hsuspends).mp hfirst]
                  exact ⟨others, ih.mpr ⟨hadmitted, hothers⟩, rfl⟩
                · rintro ⟨others, hothers, rfl⟩
                  obtain ⟨hadmitted, hlisted⟩ := ih.mp hothers
                  exact ⟨⟨hnew, hsound, hadmitted⟩, _, others,
                    (listedAs_iff_eq hsuspends).mpr rfl, hlisted, rfl⟩
              rw [hrest]
              cases signaturesAfter constants (function.name :: seen) rest with
              | error fault => simp
              | ok others => simp [eq_comm]

/-- What is wrong with a function, where functions with the names `known` came before. -/
inductive Objection (constants : List Constant) (known : List String)
    (function : FunctionDecl) : ResolveError → Prop where
  | twice (hknown : function.name ∈ known) :
      Objection constants known function (.functionTwice function.name)
  | badFlag {value : Int} (hnew : function.name ∉ known)
      (hflag : ⟨flagName function.name, value⟩ ∈ constants)
      (hzero : value ≠ 0) (hone : value ≠ 1) :
      Objection constants known function (.badFlag (flagName function.name) value)

/-- What is wrong with the first function that something is wrong with. -/
def FirstObjection (constants : List Constant) (seen : List String)
    (functions : List FunctionDecl) (error : ResolveError) : Prop :=
  ∃ before function after, functions = before ++ function :: after ∧
    Admitted constants seen before ∧
      Objection constants ((before.map FunctionDecl.name).reverse ++ seen) function error

theorem firstObjection_cons_iff
    {function : FunctionDecl} {error : ResolveError} :
    FirstObjection constants seen (function :: functions) error ↔
      Objection constants seen function error ∨
        (function.name ∉ seen ∧ FlagSound constants function ∧
          FirstObjection constants (function.name :: seen) functions error) := by
  constructor
  · rintro ⟨before, found, after, hsplit, hadmitted, hobjection⟩
    cases before with
    | nil =>
        obtain ⟨rfl, -⟩ := List.cons.inj hsplit
        exact Or.inl hobjection
    | cons head tail =>
        obtain ⟨rfl, rfl⟩ := List.cons.inj hsplit
        obtain ⟨hnew, hsound, htail⟩ := admitted_cons_iff.mp hadmitted
        refine Or.inr ⟨hnew, hsound, tail, found, after, rfl, htail, ?_⟩
        simpa using hobjection
  · rintro (hobjection | ⟨hnew, hsound, before, found, after, rfl, htail, hobjection⟩)
    · exact ⟨[], function, functions, rfl, admitted_nil, hobjection⟩
    · refine ⟨function :: before, found, after, rfl, ?_, ?_⟩
      · exact admitted_cons_iff.mpr ⟨hnew, hsound, htail⟩
      · simpa using hobjection

theorem signaturesAfter_eq_error_iff
    (honce : (constants.map Constant.name).Nodup) {error : ResolveError} :
    signaturesAfter constants seen functions = .error error ↔
      FirstObjection constants seen functions error := by
  induction functions generalizing seen with
  | nil => simp [signaturesAfter, FirstObjection]
  | cons function rest ih =>
      rw [firstObjection_cons_iff, signaturesAfter, ← ih]
      split
      · next hseen =>
          constructor
          · rintro ⟨⟩
            exact Or.inl (.twice hseen)
          · rintro (hobjection | ⟨hnew, -⟩)
            · cases hobjection with
              | twice hknown => rfl
              | badFlag hnew hflag hzero hone => exact absurd hseen hnew
            · exact absurd hseen hnew
      · next hnew =>
          have hobjection :
              Objection constants seen function error ↔
                readFlag constants function.name = .error error := by
            rw [readFlag_eq_error_iff honce]
            constructor
            · rintro (hknown | ⟨-, hflag, hzero, hone⟩)
              · exact absurd hknown hnew
              · exact ⟨_, hflag, hzero, hone, rfl⟩
            · rintro ⟨value, hflag, hzero, hone, rfl⟩
              exact .badFlag hnew hflag hzero hone
          rw [hobjection]
          cases hflag : readFlag constants function.name with
          | error fault => simp [not_flagSound_of_readFlag honce hflag]
          | ok suspends =>
              have hsound := ((readFlag_eq_ok_iff honce).mp hflag).1
              cases signaturesAfter constants (function.name :: seen) rest with
              | error fault => simp [hnew, hsound]
              | ok signatures => simp

/-! ## The manifest -/

theorem mem_constantsOf
    {directives : List Directive} {declared : Constant} :
    declared ∈ constantsOf directives ↔ .constant declared ∈ directives := by
  unfold constantsOf
  rw [List.mem_filterMap]
  constructor
  · rintro ⟨directive, hmem, hdeclared⟩
    cases directive with
    | constant other =>
        cases hdeclared
        exact hmem
    | function other => cases hdeclared
  · intro hmem
    exact ⟨_, hmem, rfl⟩

/-- The constants that are flags of functions. -/
def flagsOf (directives : List Directive) : List Constant :=
  (constantsOf directives).filter fun declared =>
    isFlagOf (functionsOf directives) declared.name

/-- Nothing stands in the way of a manifest. -/
structure Resolvable (directives : List Directive) : Prop where
  constantsOnce : ((constantsOf directives).map Constant.name).Nodup
  functionsOnce : ((functionsOf directives).map FunctionDecl.name).Nodup
  flags : ∀ function ∈ functionsOf directives, FlagSound (constantsOf directives) function

/-- The manifest of a list of directives. -/
structure Paired (directives : List Directive) (manifest : Manifest) : Prop where
  functions :
    List.Forall₂ (ListedAs (constantsOf directives)) (functionsOf directives)
      manifest.functions
  constants :
    manifest.constants =
      (constantsOf directives).filter fun declared =>
        ∀ function ∈ functionsOf directives, declared.name ≠ flagName function.name
  /-- Every directive is a function, a listed constant or a flag, as often as it stands
  there. -/
  complete :
    directives.Perm
      ((functionsOf directives).map .function ++
        (manifest.constants ++ flagsOf directives).map .constant)
  /-- No flag belongs to two functions, and no listed constant to any. -/
  flags :
    ∀ flag ∈ flagsOf directives,
      flag ∉ manifest.constants ∧
        ∃! function, function ∈ functionsOf directives ∧ flagName function.name = flag.name

/-- The text with which a list of directives is refused. -/
inductive Refused (directives : List Directive) : String → Prop where
  | constantTwice {before after : List Constant} {again : Constant}
      (hsplit : constantsOf directives = before ++ again :: after)
      (honce : (before.map Constant.name).Nodup)
      (hagain : again.name ∈ before.map Constant.name) :
      Refused directives ("constant " ++ again.name ++ " declared twice")
  | functionTwice {before after : List FunctionDecl} {again : FunctionDecl}
      (hconstants : ((constantsOf directives).map Constant.name).Nodup)
      (hsplit : functionsOf directives = before ++ again :: after)
      (honce : (before.map FunctionDecl.name).Nodup)
      (hflags : ∀ function ∈ before, FlagSound (constantsOf directives) function)
      (hagain : again.name ∈ before.map FunctionDecl.name) :
      Refused directives ("function " ++ again.name ++ " declared twice")
  | badFlag {before after : List FunctionDecl} {function : FunctionDecl} {value : Int}
      (hconstants : ((constantsOf directives).map Constant.name).Nodup)
      (hsplit : functionsOf directives = before ++ function :: after)
      (honce : (before.map FunctionDecl.name).Nodup)
      (hflags : ∀ earlier ∈ before, FlagSound (constantsOf directives) earlier)
      (hnew : function.name ∉ before.map FunctionDecl.name)
      (hflag : .constant ⟨function.name ++ "_async", value⟩ ∈ directives)
      (hzero : value ≠ 0) (hone : value ≠ 1) :
      Refused directives
        (function.name ++ "_async" ++ " must be 0 or 1 (got " ++ toString value ++ ")")

variable {directives : List Directive} {manifest : Manifest}

theorem admitted_functionsOf_iff :
    Admitted (constantsOf directives) [] (functionsOf directives) ↔
      ((functionsOf directives).map FunctionDecl.name).Nodup ∧
        ∀ function ∈ functionsOf directives, FlagSound (constantsOf directives) function := by
  constructor
  · exact fun hadmitted => ⟨hadmitted.once, hadmitted.flags⟩
  · exact fun ⟨honce, hflags⟩ => ⟨honce, fun _ _ => List.not_mem_nil, hflags⟩

theorem isFlagOf_eq_true_iff
    {name : String} :
    isFlagOf functions name = true ↔ ∃ function ∈ functions, flagName function.name = name := by
  simp [isFlagOf]

theorem flagName_injective : Function.Injective flagName := by
  intro name other hsame
  unfold flagName at hsame
  rw [← String.toList_inj, String.toList_append, String.toList_append] at hsame
  exact String.toList_inj.mp (List.append_cancel_right hsame)

theorem filter_constants_eq :
    (constants.filter fun declared => !isFlagOf functions declared.name) =
      constants.filter fun declared =>
        ∀ function ∈ functions, declared.name ≠ flagName function.name := by
  apply List.filter_congr
  intro declared _
  rw [Bool.eq_iff_iff, Bool.not_eq_true', ← Bool.not_eq_true, isFlagOf_eq_true_iff,
    decide_eq_true_iff]
  constructor
  · exact fun hnone function hfunction hname => hnone ⟨function, hfunction, hname.symm⟩
  · exact fun hall ⟨function, hfunction, hname⟩ => hall function hfunction hname.symm

theorem perm_declarations (directives : List Directive) :
    directives.Perm
      ((functionsOf directives).map .function ++ (constantsOf directives).map .constant) := by
  induction directives with
  | nil => exact .nil
  | cons directive rest ih =>
      cases directive with
      | function declared => exact ih.cons _
      | constant declared => exact (ih.cons _).trans List.perm_middle.symm

theorem paired_of_listed
    (hfunctions : ((functionsOf directives).map FunctionDecl.name).Nodup)
    {signatures : List Signature}
    (hlisted :
      List.Forall₂ (ListedAs (constantsOf directives)) (functionsOf directives) signatures) :
    Paired directives
      ⟨signatures, (constantsOf directives).filter fun declared =>
        !isFlagOf (functionsOf directives) declared.name⟩ := by
  constructor
  · exact hlisted
  · exact filter_constants_eq
  · apply (perm_declarations directives).trans
    apply List.Perm.append_left
    apply List.Perm.map
    apply (List.filter_append_perm (fun declared =>
      isFlagOf (functionsOf directives) declared.name) _).symm.trans
    exact List.perm_append_comm
  · intro flag hmem
    obtain ⟨-, hflag⟩ := List.mem_filter.mp hmem
    constructor
    · simp [hflag]
    · obtain ⟨function, hfunction, hname⟩ := isFlagOf_eq_true_iff.mp hflag
      refine ⟨function, ⟨hfunction, hname⟩, ?_⟩
      rintro other ⟨hother, hsame⟩
      apply List.inj_on_of_nodup_map hfunctions hother hfunction
      exact flagName_injective (hsame.trans hname.symm)

theorem resolvable_iff :
    Resolvable directives ↔
      ((constantsOf directives).map Constant.name).Nodup ∧
        Admitted (constantsOf directives) [] (functionsOf directives) := by
  rw [admitted_functionsOf_iff]
  constructor
  · exact fun hresolvable =>
      ⟨hresolvable.constantsOnce, hresolvable.functionsOnce, hresolvable.flags⟩
  · exact fun ⟨hconstants, hfunctions, hflags⟩ => ⟨hconstants, hfunctions, hflags⟩

theorem resolve_eq_ok_iff :
    resolve directives = .ok manifest ↔
      Resolvable directives ∧
        List.Forall₂ (ListedAs (constantsOf directives)) (functionsOf directives)
            manifest.functions ∧
          manifest.constants = (constantsOf directives).filter fun declared =>
            !isFlagOf (functionsOf directives) declared.name := by
  rw [resolvable_iff, ← firstRepeat?_eq_none_iff]
  simp only [resolve]
  cases hrepeat : firstRepeat? ((constantsOf directives).map Constant.name) with
  | some name => simp
  | none =>
      have honce := firstRepeat?_eq_none_iff.mp hrepeat
      constructor
      · intro hresolve
        dsimp only at hresolve
        split at hresolve
        · cases hresolve
        · next signatures hsignatures =>
            cases hresolve
            obtain ⟨hadmitted, hlisted⟩ := (signaturesAfter_eq_ok_iff honce).mp hsignatures
            exact ⟨⟨rfl, hadmitted⟩, hlisted, rfl⟩
      · rintro ⟨⟨-, hadmitted⟩, hlisted, hconstants⟩
        rw [(signaturesAfter_eq_ok_iff honce).mpr ⟨hadmitted, hlisted⟩, ← hconstants]

theorem resolve_eq_error_iff
    {error : ResolveError} :
    resolve directives = .error error ↔
      (∃ name, firstRepeat? ((constantsOf directives).map Constant.name) = some name ∧
        error = .constantTwice name) ∨
      (((constantsOf directives).map Constant.name).Nodup ∧
        FirstObjection (constantsOf directives) [] (functionsOf directives) error) := by
  rw [← firstRepeat?_eq_none_iff]
  simp only [resolve]
  cases hrepeat : firstRepeat? ((constantsOf directives).map Constant.name) with
  | some name => simp [eq_comm]
  | none =>
      have honce := firstRepeat?_eq_none_iff.mp hrepeat
      rw [← signaturesAfter_eq_error_iff honce]
      cases signaturesAfter (constantsOf directives) [] (functionsOf directives) with
      | error fault => simp
      | ok signatures => simp

theorem paired_iff
    (hresolvable : Resolvable directives) :
    Paired directives manifest ↔
      List.Forall₂ (ListedAs (constantsOf directives)) (functionsOf directives)
          manifest.functions ∧
        manifest.constants = (constantsOf directives).filter fun declared =>
          !isFlagOf (functionsOf directives) declared.name := by
  constructor
  · intro hpaired
    exact ⟨hpaired.functions, hpaired.constants.trans filter_constants_eq.symm⟩
  · obtain ⟨signatures, listed⟩ := manifest
    rintro ⟨hlisted, rfl⟩
    exact paired_of_listed hresolvable.functionsOnce hlisted

theorem exists_listed
    (functions : List FunctionDecl) (constants : List Constant) :
    ∃ signatures, List.Forall₂ (ListedAs constants) functions signatures := by
  classical
  induction functions with
  | nil => exact ⟨[], .nil⟩
  | cons function rest ih =>
      obtain ⟨signatures, hlisted⟩ := ih
      refine ⟨⟨function.name, function.params.length,
        decide (⟨flagName function.name, 1⟩ ∈ constants), function.params,
        function.returns⟩ :: signatures, .cons ?_ hlisted⟩
      exact (listedAs_iff_eq decide_eq_true_iff).mpr rfl

theorem refused_iff
    {text : String} :
    (∃ error, resolve directives = .error error ∧ error.message = text) ↔
      Refused directives text := by
  constructor
  · rintro ⟨error, hresolve, rfl⟩
    rcases resolve_eq_error_iff.mp hresolve with ⟨name, hrepeat, rfl⟩ | ⟨honce, hfirst⟩
    · obtain ⟨names, others, hsplit, hnodup, hagain⟩ := firstRepeat?_eq_some_iff.mp hrepeat
      obtain ⟨before, rest, hconstants, rfl, hrest⟩ := List.map_eq_append_iff.mp hsplit
      obtain ⟨again, after, rfl, rfl, -⟩ := List.map_eq_cons_iff.mp hrest
      exact .constantTwice hconstants hnodup hagain
    · obtain ⟨before, function, after, hsplit, hadmitted, hobjection⟩ := hfirst
      cases hobjection with
      | twice hknown =>
          exact .functionTwice honce hsplit hadmitted.once hadmitted.flags (by simpa using hknown)
      | badFlag hnew hflag hzero hone =>
          exact .badFlag honce hsplit hadmitted.once hadmitted.flags (by simpa using hnew)
            (mem_constantsOf.mp hflag) hzero hone
  · intro hrefused
    cases hrefused with
    | @constantTwice before after again hsplit honce hagain =>
        refine ⟨.constantTwice again.name, resolve_eq_error_iff.mpr (Or.inl ⟨_, ?_, rfl⟩), rfl⟩
        rw [firstRepeat?_eq_some_iff, hsplit, List.map_append, List.map_cons]
        exact ⟨_, _, rfl, honce, hagain⟩
    | @functionTwice before after again hconstants hsplit honce hflags hagain =>
        refine ⟨.functionTwice again.name, resolve_eq_error_iff.mpr (Or.inr ⟨hconstants, ?_⟩), rfl⟩
        refine ⟨before, again, after, hsplit, ⟨honce, fun _ _ => List.not_mem_nil, hflags⟩, ?_⟩
        exact .twice (by simpa using hagain)
    | @badFlag before after function value hconstants hsplit honce hflags hnew hflag hzero hone =>
        refine ⟨.badFlag (flagName function.name) value,
          resolve_eq_error_iff.mpr (Or.inr ⟨hconstants, ?_⟩), rfl⟩
        refine ⟨before, function, after, hsplit, ⟨honce, fun _ _ => List.not_mem_nil, hflags⟩, ?_⟩
        exact .badFlag (by simpa using hnew) (mem_constantsOf.mpr hflag) hzero hone

/-- Resolving pairs every function with its flag, and refuses what cannot be paired. -/
theorem resolve_pairs_flags (directives : List Directive) :
    ((∃ manifest, resolve directives = .ok manifest) ↔ Resolvable directives) ∧
    (∀ manifest, resolve directives = .ok manifest ↔
      Resolvable directives ∧ Paired directives manifest) ∧
    ∀ text, (∃ error, resolve directives = .error error ∧ error.message = text) ↔
      Refused directives text := by
  refine ⟨?_, ?_, fun text => refused_iff⟩
  · constructor
    · rintro ⟨manifest, hresolve⟩
      exact (resolve_eq_ok_iff.mp hresolve).1
    · intro hresolvable
      obtain ⟨signatures, hlisted⟩ :=
        exists_listed (functionsOf directives) (constantsOf directives)
      exact ⟨⟨signatures, _⟩, resolve_eq_ok_iff.mpr ⟨hresolvable, hlisted, rfl⟩⟩
  · intro manifest
    rw [resolve_eq_ok_iff]
    exact and_congr_right fun hresolvable => (paired_iff hresolvable).symm

/-- A flag may have the name of a function, which has a flag of its own. -/
example :
    resolve
        [.constant ⟨"f_async", 1⟩, .function ⟨"f", .nil, []⟩, .function ⟨"f_async", .int, []⟩,
          .constant ⟨"f_async_async", 0⟩, .constant ⟨"f", 7⟩] =
      .ok ⟨[⟨"f", 0, true, [], .nil⟩, ⟨"f_async", 0, false, [], .int⟩], [⟨"f", 7⟩]⟩ := by
  decide +kernel

end ResourceHandles
