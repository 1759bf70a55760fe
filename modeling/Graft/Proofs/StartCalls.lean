-- The call that starts the framework. The files of a directory are read in
-- their order up to the first that cannot be read or that holds a start call,
-- and the first start call of that file decides what is found. What a start
-- call is depends on the name that the file gives to the framework.
import Graft.Proofs.Capture
import Graft.Proofs.Listings
import Graft.Proofs.Providers
import Graft.Proofs.SourceTrees

namespace Graft

open Go

/-! ## References -/

namespace Go.Expr

/-- The expression can be written into another file: a name, a name selected from a name, or a
call of one of these without arguments. -/
inductive IsReference : Expr → Prop
  | name (n : String) : IsReference (.ident n)
  | selected (base field : String) : IsReference (.selector (.ident base) field)
  | calledName (n : String) : IsReference (.call (.ident n) [])
  | calledSelected (base field : String) :
    IsReference (.call (.selector (.ident base) field) [])

end Go.Expr

namespace Reference

variable {imports : List Import} {e : Expr} {r : Reference}

/-- A call without arguments is displayed as what is called, with brackets. -/
theorem display_call (callee : Expr) :
    (Expr.call callee []).display = callee.display ++ "()" := by
  rw [Expr.display, Expr.displayArgs, String.append_empty, String.append_assoc]
  rfl

/-- A reference is found, and its text is that of the expression. -/
theorem ofExpr?_of_isReference (imports : List Import) (h : e.IsReference) :
    ∃ r, ofExpr? imports e = some r ∧ r.value = e.display := by
  cases h with
  | name n => exact ⟨⟨n, none⟩, rfl, by rw [Expr.display]⟩
  | selected base field =>
    exact ⟨⟨base ++ "." ++ field, providerOf imports base⟩, rfl,
      by rw [Expr.display, Expr.display]⟩
  | calledName n =>
    refine ⟨⟨n ++ "()", none⟩, rfl, ?_⟩
    rw [display_call, Expr.display]
  | calledSelected base field =>
    refine ⟨⟨base ++ "." ++ field ++ "()", providerOf imports base⟩, rfl, ?_⟩
    rw [display_call, Expr.display, Expr.display]

theorem isReference_of_ofExpr? (h : ofExpr? imports e = some r) : e.IsReference := by
  unfold ofExpr? at h
  split at h
  · next callee =>
    obtain ⟨q, hq, -⟩ := Option.map_eq_some_iff.mp h
    unfold ofName? at hq
    split at hq
    · exact .calledName _
    · exact .calledSelected _ _
    · cases hq
  · unfold ofName? at h
    split at h
    · exact .name _
    · exact .selected _ _
    · cases h

end Reference

/-! ## What starts the framework -/

namespace Resolve

/-- The call is one of the function that starts the framework, with one argument. It is made on
the name that the file gives to the framework, or on the usual name. -/
def IsStart (importPath : String) (imports : List Import) (c : Call) : Prop :=
  c.callee = .selector (.ident ((aliasOf imports importPath).getD frameworkName)) startName ∧
    ∃ arg, c.args = [arg]

variable {importPath directory : String} {imports : List Import} {c : Call}

theorem answers_startsFramework :
    Scan.answers (startsFramework importPath) imports c = true ↔ IsStart importPath imports c := by
  unfold Scan.answers IsStart startsFramework
  rcases hc : c.callee with n | ⟨base, name⟩ | ⟨callee, args⟩ | ⟨kind, text⟩
  · simp [Expr.selector?]
  · cases base <;> simp [Expr.selector?, Expr.ident?, List.length_eq_one_iff, and_assoc,
      and_left_comm, and_comm]
  · simp [Expr.selector?]
  · simp [Expr.selector?]

/-- The name under which calls are made on a package: the name that the import gives, or the usual
name of the framework. -/
def calledAs (i : Import) : String := i.name.getD frameworkName

/-- The first import of the path tells the name of the framework. -/
theorem aliasOf_getD (imports : List Import) (importPath : String) :
    (aliasOf imports importPath).getD frameworkName =
      match imports.find? (fun i => i.path == importPath) with
      | some i => calledAs i
      | none => frameworkName := by
  unfold aliasOf
  cases imports.find? (fun i => i.path == importPath) <;> rfl

/-- A call of the function that starts the framework, on a name, with one argument. -/
def startCall (base : String) (arg : Expr) (line : Nat) : Call :=
  ⟨.selector (.ident base) startName, [arg], line⟩

theorem isStart_startCall {base : String} {arg : Expr} {line : Nat} :
    IsStart importPath imports (startCall base arg line) ↔
      base = (aliasOf imports importPath).getD frameworkName := by
  unfold IsStart startCall
  simp

/-- In a file that does not import the framework, a call on the usual name starts it. In a file
that imports it under one name, just a call on that name does; and where several names are given,
a call that starts it is made on one of them. -/
theorem the_framework_is_started_by_its_name_in_the_file (s : Source) (importPath base : String)
    (arg : Expr) (line : Nat) :
    ((∀ i ∈ s.imports, i.path ≠ importPath) →
      (Scan.answers (startsFramework importPath) s.imports (startCall base arg line) = true ↔
        base = frameworkName)) ∧
    (∀ name, (∃ i ∈ s.imports, i.path = importPath) →
      (∀ i ∈ s.imports, i.path = importPath → calledAs i = name) →
      (Scan.answers (startsFramework importPath) s.imports (startCall base arg line) = true ↔
        ∃ i ∈ s.imports, i.path = importPath ∧ calledAs i = base)) ∧
    ((∃ i ∈ s.imports, i.path = importPath) →
      Scan.answers (startsFramework importPath) s.imports (startCall base arg line) = true →
      ∃ i ∈ s.imports, i.path = importPath ∧ calledAs i = base) := by
  rw [answers_startsFramework, isStart_startCall, aliasOf_getD]
  cases hfirst : s.imports.find? (fun i => i.path == importPath) with
  | none =>
    have hnone : ∀ i ∈ s.imports, i.path ≠ importPath := by
      simpa using List.find?_eq_none.mp hfirst
    have hno : ¬ ∃ i ∈ s.imports, i.path = importPath := fun ⟨i, hi, hpath⟩ => hnone i hi hpath
    exact ⟨fun _ => Iff.rfl, fun _ hsome => absurd hsome hno, fun hsome => absurd hsome hno⟩
  | some i =>
    have hi := List.mem_of_find?_eq_some hfirst
    have hpath : i.path = importPath := by simpa using List.find?_some hfirst
    refine ⟨fun hnone => absurd hpath (hnone i hi), fun name _ hone => ?_,
      fun _ hbase => ⟨i, hi, hpath, hbase.symm⟩⟩
    constructor
    · exact fun hbase => ⟨i, hi, hpath, hbase.symm⟩
    · rintro ⟨j, hj, hjpath, rfl⟩
      exact (hone j hj hjpath).trans (hone i hi hpath).symm

end Resolve

namespace Sample

/-- A program that imports nothing. -/
def bareText : String :=
  Stub.inLines ["package main", "", "func main() \x7b", "\tgoyave.Start(run)", "\x7d"]

/-- A program that imports the framework under a name of its own. -/
def aliasedText : String :=
  Stub.inLines ["package main", "", "import g \"goyave.dev/goyave/v5\"", "", "func main() \x7b",
    "\tg.Start(run)", "\x7d"]

/-- A program that imports the framework twice. -/
def doubleText : String :=
  Stub.inLines ["package main", "", "import \"goyave.dev/goyave/v5\"",
    "import g \"goyave.dev/goyave/v5\"", "", "func main() \x7b", "\tgoyave.Start(run)", "\x7d"]

theorem exists_parsed {text : String} {imports : List Import}
    (h : (Source.parse "/shop/main.go" text).toOption.any (fun s => s.imports == imports) = true) :
    ∃ s, Source.parse "/shop/main.go" text = .ok s ∧ s.imports = imports := by
  cases hs : Source.parse "/shop/main.go" text with
  | error p =>
    rw [hs] at h
    cases h
  | ok s =>
    rw [hs] at h
    exact ⟨s, rfl, eq_of_beq h⟩

/-- A call by `base` with the argument of the programs. -/
def startsBy (s : Source) (base : String) : Bool :=
  Scan.answers (Resolve.startsFramework project.framework.importPath) s.imports
    (Resolve.startCall base (.ident "run") 1)

/-- The framework is started by its usual name where it is not imported, by the name of its import
where it has one, and by no name but its two where it has these. -/
theorem the_programs_start_the_framework_by_their_names :
    (∃ s, Source.parse "/shop/main.go" bareText = .ok s ∧
      startsBy s "goyave" = true ∧ startsBy s "g" = false) ∧
    (∃ s, Source.parse "/shop/main.go" aliasedText = .ok s ∧
      startsBy s "g" = true ∧ startsBy s "goyave" = false) ∧
    ∃ s, Source.parse "/shop/main.go" doubleText = .ok s ∧
      startsBy s "goyave" = true ∧ startsBy s "h" = false := by
  refine ⟨?_, ?_, ?_⟩
  · obtain ⟨s, hs, himports⟩ : ∃ s, Source.parse "/shop/main.go" bareText = .ok s ∧
        s.imports = [] := exists_parsed (by
      unfold Source.parse bareText
      rw [Stub.toList_inLines]
      decide +kernel)
    have hnone : ∀ i ∈ s.imports, i.path ≠ project.framework.importPath := by simp [himports]
    have hbase := fun base => (Resolve.the_framework_is_started_by_its_name_in_the_file s
      project.framework.importPath base (.ident "run") 1).1 hnone
    refine ⟨s, hs, (hbase "goyave").mpr rfl, ?_⟩
    rw [Bool.eq_false_iff]
    exact fun h => absurd ((hbase "g").mp h) (by decide)
  · obtain ⟨s, hs, himports⟩ : ∃ s, Source.parse "/shop/main.go" aliasedText = .ok s ∧
        s.imports = [⟨some "g", "goyave.dev/goyave/v5"⟩] := exists_parsed (by
      unfold Source.parse aliasedText
      rw [Stub.toList_inLines]
      decide +kernel)
    have hbase := fun base => (Resolve.the_framework_is_started_by_its_name_in_the_file s
      project.framework.importPath base (.ident "run") 1).2.1 "g" (by simp [himports, project])
      (by simp [himports, Resolve.calledAs])
    refine ⟨s, hs, (hbase "g").mpr (by simp [himports, project, Resolve.calledAs]), ?_⟩
    rw [Bool.eq_false_iff]
    exact fun h => absurd ((hbase "goyave").mp h) (by simp [himports, Resolve.calledAs])
  · obtain ⟨s, hs, himports⟩ : ∃ s, Source.parse "/shop/main.go" doubleText = .ok s ∧
        s.imports = [⟨none, "goyave.dev/goyave/v5"⟩, ⟨some "g", "goyave.dev/goyave/v5"⟩] :=
      exists_parsed (by
        unfold Source.parse doubleText
        rw [Stub.toList_inLines]
        decide +kernel)
    have hbase := fun base => (Resolve.the_framework_is_started_by_its_name_in_the_file s
      project.framework.importPath base (.ident "run") 1).2.2 (by simp [himports, project])
    refine ⟨s, hs, ?_, ?_⟩
    · unfold startsBy
      rw [himports]
      decide
    · rw [Bool.eq_false_iff]
      exact fun h => absurd (hbase "h" h) (by simp [himports, Resolve.calledAs, Resolve.frameworkName])

theorem bare_answers : (Source.parse "/shop/main.go" bareText).toOption.any (fun s =>
    s.imports.isEmpty && s.calls.any (Scan.answers
      (Resolve.startsFramework project.framework.importPath) s.imports)) = true := by
  unfold Source.parse bareText
  rw [Stub.toList_inLines]
  decide +kernel

/-- A call on the usual name starts the framework also in a file that does not import it. -/
theorem a_program_without_imports_starts_the_framework :
    ∃ s c arg, Source.parse "/shop/main.go" bareText = .ok s ∧ c ∈ s.calls ∧
      c.callee = .selector (.ident "goyave") "Start" ∧ c.args = [arg] ∧
      Scan.answers (Resolve.startsFramework project.framework.importPath) s.imports c = true ∧
      ¬ ∃ i ∈ s.imports, i.path = project.framework.importPath ∧
        Resolve.calledAs i = "goyave" := by
  have hbare := bare_answers
  cases hs : Source.parse "/shop/main.go" bareText with
  | error p =>
    rw [hs] at hbare
    cases hbare
  | ok s =>
    rw [hs] at hbare
    obtain ⟨hnone, hany⟩ := Bool.and_eq_true_iff.mp hbare
    obtain ⟨c, hc, hanswers⟩ := List.any_eq_true.mp hany
    have himports : s.imports = [] := List.isEmpty_iff.mp hnone
    obtain ⟨hcallee, arg, harg⟩ := Resolve.answers_startsFramework.mp hanswers
    rw [himports] at hcallee
    refine ⟨s, c, arg, rfl, hc, hcallee, harg, hanswers, ?_⟩
    rw [himports]
    rintro ⟨i, hi, -⟩
    cases hi

end Sample

/-! ## The first start call -/

namespace Scan

variable {α : Type} {v : Files.View} {f : Source → List α} {directory path : String}
  {before after : List String}

/-- The file can be read and gives no result. -/
def IsSilent (v : Files.View) (f : Source → List α) (path : String) : Prop :=
  ∃ s, readSource v path = .ok s ∧ f s = []

theorem next_start_of_listed {files : List String} (h : sourceFiles v directory = .ok files) :
    Stream.next v f (.start directory) = Stream.advance v f directory files := by
  unfold Stream.next Stream.start
  dsimp only
  rw [if_neg Bool.false_ne_true, h]

theorem next_start_of_unlisted {e : Error} (h : sourceFiles v directory = .error e) :
    (Stream.next v f (.start directory)).1 = some (.error e) := by
  unfold Stream.next Stream.start
  dsimp only
  rw [if_neg Bool.false_ne_true, h]

/-- Files without a result are passed over. -/
theorem advance_append (h : ∀ q ∈ before, IsSilent v f q) (more : List String) :
    Stream.advance v f directory (before ++ more) = Stream.advance v f directory more := by
  induction before with
  | nil => rfl
  | cons q before ih =>
    obtain ⟨s, hs, hnone⟩ := h q List.mem_cons_self
    rw [List.cons_append, Stream.advance, hs]
    dsimp only
    rw [hnone]
    exact ih fun p hp => h p (List.mem_cons_of_mem _ hp)

theorem advance_of_unread {e : Error} (h : readSource v path = .error e) :
    (Stream.advance v f directory (path :: after)).1 = some (.error e) := by
  rw [Stream.advance, h]

theorem advance_of_found {s : Source} {x : α} {xs : List α} (h : readSource v path = .ok s)
    (hx : f s = x :: xs) : (Stream.advance v f directory (path :: after)).1 = some (.ok x) := by
  rw [Stream.advance, h]
  dsimp only
  rw [hx]

/-- The first call that answers gives the first site. -/
theorem head?_sitesIn {q : Question} {s : Source} {c : Call}
    (h : IsFirst (fun c => answers q s.imports c = true) s.calls c) :
    ∃ more, sitesIn q s = ⟨s.path, c.line, c.callee, c.args, s.imports⟩ :: more := by
  have hfind := (isFirst_iff_find? fun _ => Iff.rfl).mp h
  rw [← List.head?_filter] at hfind
  obtain ⟨more, hmore⟩ := List.head?_eq_some_iff.mp hfind
  unfold sitesIn
  rw [hmore]
  exact ⟨_, rfl⟩

end Scan

namespace Resolve

variable {directory importPath : String}

/-- The file can be read and holds no start call. -/
def HoldsNoStart (v : Files.View) (importPath path : String) : Prop :=
  ∃ s, Scan.readSource v path = .ok s ∧ ∀ c ∈ s.calls, ¬ IsStart importPath s.imports c

theorem HoldsNoStart.isSilent {v : Files.View} {path : String}
    (h : HoldsNoStart v importPath path) :
    Scan.IsSilent v (Scan.sitesIn (startsFramework importPath)) path := by
  obtain ⟨s, hs, hnone⟩ := h
  refine ⟨s, hs, ?_⟩
  unfold Scan.sitesIn
  rw [List.map_eq_nil_iff, List.filter_eq_nil_iff]
  intro c hc
  rw [answers_startsFramework]
  exact hnone c hc

/-- What is found where the files in front hold no start call. -/
theorem result_of_front {h : Host} {w : World} {before more : List String}
    (hfiles : Scan.sourceFiles w.view directory = .ok (before ++ more))
    (hbefore : ∀ q ∈ before, HoldsNoStart w.view importPath q) :
    ((routeRegistrer directory importPath).perform h w).1 =
      match (Scan.Stream.advance w.view (Scan.sitesIn (startsFramework importPath)) directory
        more).1 with
      | none => .error (.noStartCall directory)
      | some (.error e) => .error (.scan e)
      | some (.ok site) => ofSite site := by
  rewrite [result_routeRegistrer, Scan.next_start_of_listed hfiles,
    Scan.advance_append fun q hq => (hbefore q hq).isSilent]
  rfl

/-- The reference that the argument of a start call makes, or the complaint about it. -/
theorem ofSite_of_arg {path : String} {line : Nat} {callee arg : Expr} {imports : List Import} :
    (arg.IsReference → ∃ r, ofSite ⟨path, line, callee, [arg], imports⟩ = .ok r ∧
        r.value = arg.display) ∧
      (¬ arg.IsReference → ofSite ⟨path, line, callee, [arg], imports⟩ =
        .error (.unsupported path line arg.display)) := by
  unfold ofSite
  constructor
  · intro harg
    obtain ⟨r, hr, hvalue⟩ := Reference.ofExpr?_of_isReference imports harg
    dsimp only
    rw [hr]
    exact ⟨r, rfl, hvalue⟩
  · intro harg
    dsimp only
    cases hr : Reference.ofExpr? imports arg with
    | none => rfl
    | some r => exact absurd (Reference.isReference_of_ofExpr? hr) harg

theorem isReference_of_ofSite {path : String} {line : Nat} {callee arg : Expr}
    {imports : List Import} {r : Reference}
    (h : ofSite ⟨path, line, callee, [arg], imports⟩ = .ok r) : arg.IsReference := by
  by_cases harg : arg.IsReference
  · exact harg
  · rw [ofSite_of_arg.2 harg] at h
    cases h

/-- The source files of a directory are read in the order of the bytes of their names, up to one
that cannot be read or that holds a start call. The first start call, of the calls in the order of
the tree, decides: its only argument is the reference that is found, or is refused. What follows
the file has no part in it. -/
theorem the_first_start_call_decides (directory importPath : String) (h : Host) (w : World) :
    (∀ e, Scan.sourceFiles w.view directory = .error e →
      ((routeRegistrer directory importPath).perform h w).1 = .error (.scan e)) ∧
    ∀ files, Scan.sourceFiles w.view directory = .ok files →
      Scan.IsListing w.view directory files ∧
      ((∀ path ∈ files, HoldsNoStart w.view importPath path) →
        ((routeRegistrer directory importPath).perform h w).1 =
          .error (.noStartCall directory)) ∧
      ∀ before path after, files = before ++ path :: after →
        (∀ q ∈ before, HoldsNoStart w.view importPath q) →
        (∀ e, Scan.readSource w.view path = .error e →
          ((routeRegistrer directory importPath).perform h w).1 = .error (.scan e)) ∧
        ∀ s c, Scan.readSource w.view path = .ok s →
          IsFirst (IsStart importPath s.imports) (s.tree.preorder.filterMap Tree.call?) c →
          (∃ arg, c.args = [arg] ∧
            (arg.IsReference → ∃ r,
              ((routeRegistrer directory importPath).perform h w).1 = .ok r ∧
                r.value = arg.display) ∧
            (¬ arg.IsReference → ((routeRegistrer directory importPath).perform h w).1 =
              .error (.unsupported path c.line arg.display))) ∧
          ∀ h' u others, Scan.sourceFiles u.view directory = .ok (before ++ path :: others) →
            (∀ q ∈ before ++ [path], Scan.readSource u.view q = Scan.readSource w.view q) →
            ((routeRegistrer directory importPath).perform h' u).1 =
              ((routeRegistrer directory importPath).perform h w).1 := by
  refine ⟨fun e he => ?_, fun files hfiles => ⟨Scan.isListing_of_sourceFiles hfiles, ?_, ?_⟩⟩
  · rw [result_routeRegistrer, Scan.next_start_of_unlisted he]
  · intro hnone
    rw [result_of_front ((List.append_nil files).symm ▸ hfiles) hnone]
    rfl
  · rintro before path after rfl hbefore
    refine ⟨fun e he => ?_, fun s c hs hc => ?_⟩
    · rw [result_of_front hfiles hbefore, Scan.advance_of_unread he]
    · have hpath := Scan.path_of_readSource hs
      obtain ⟨arg, harg⟩ := hc.fits.2
      have hfirst : IsFirst (fun c => Scan.answers (startsFramework importPath) s.imports c = true)
          s.calls c := by
        unfold Source.calls Tree.calls
        rw [Tree.walk_eq]
        exact (isFirst_congr fun _ _ => answers_startsFramework).mpr hc
      obtain ⟨more, hmore⟩ := Scan.head?_sitesIn hfirst
      rw [hpath, harg] at hmore
      -- The same site is found wherever the files up to this one read the same.
      have hresult : ∀ (h' : Host) (u : World) (others : List String),
          Scan.sourceFiles u.view directory = .ok (before ++ path :: others) →
          (∀ q ∈ before ++ [path], Scan.readSource u.view q = Scan.readSource w.view q) →
          ((routeRegistrer directory importPath).perform h' u).1 =
            ofSite ⟨path, c.line, c.callee, [arg], s.imports⟩ := by
        intro h' u others hothers hsame
        have hbefore' : ∀ q ∈ before, HoldsNoStart u.view importPath q := by
          intro q hq
          obtain ⟨t, ht, hnone⟩ := hbefore q hq
          exact ⟨t, (hsame q (List.mem_append_left _ hq)).trans ht, hnone⟩
        have hs' := (hsame path (by simp)).trans hs
        rw [result_of_front hothers hbefore', Scan.advance_of_found hs' hmore]
      have hown := hresult h w after hfiles fun _ _ => rfl
      refine ⟨⟨arg, harg, ?_⟩, fun h' u others hothers hsame => ?_⟩
      · rw [hown]
        exact ofSite_of_arg
      · rw [hown, hresult h' u others hothers hsame]

end Resolve

namespace Sample

/-- What the shop starts the framework with is found. -/
theorem the_start_call_of_the_shop_decides :
    ∃ s c, Scan.readSource routed.view "/shop/main.go" = .ok s ∧
      IsFirst (Resolve.IsStart project.framework.importPath s.imports)
        (s.tree.preorder.filterMap Tree.call?) c ∧
      ∃ r, ((Resolve.routeRegistrer project.directory project.framework.importPath).perform host
        routed).1 = .ok r ∧ ∃ arg, c.args = [arg] ∧ r.value = arg.display := by
  obtain ⟨s, site, more, hparse, hsites, hsite⟩ := starts_routed
  have hs : Scan.readSource routed.view "/shop/main.go" = .ok s := by
    unfold Scan.readSource routed
    rw [Files.View.readText_of_find (find_program _)]
    dsimp only
    rw [hparse]
  obtain ⟨c, calls, hcalls, rfl, -⟩ := List.map_eq_cons_iff.mp hsites
  have hfirst : IsFirst (Resolve.IsStart project.framework.importPath s.imports)
      (s.tree.preorder.filterMap Tree.call?) c := by
    refine (isFirst_iff_find? fun _ => Resolve.answers_startsFramework).mpr ?_
    rw [← List.head?_filter, ← Tree.walk_eq]
    exact congrArg List.head? hcalls
  refine ⟨s, c, hs, hfirst, ?_⟩
  obtain ⟨⟨arg, harg, hok, -⟩, -⟩ :=
    (((Resolve.the_first_start_call_decides project.directory project.framework.importPath host
      routed).2 _ (sourceFiles_withProgram _)).2.2 [] _ [] rfl (fun _ h => nomatch h)).2 s c hs
      hfirst
  obtain ⟨r, hr, hvalue⟩ := hok (Resolve.isReference_of_ofSite (harg ▸ hsite))
  exact ⟨r, hr, arg, harg, hvalue⟩

end Sample
end Graft
