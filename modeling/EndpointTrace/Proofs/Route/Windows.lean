import EndpointTrace.Proofs.Java.Nesting
import EndpointTrace.Proofs.Source.Offsets
import EndpointTrace.Route.Extraction
import Mathlib

/-!
# No text is read for two declarations

The windows of text that decide on the endpoints of a file are taken here in the order of
the text, each with the siblings declared before its own declaration.  In a well-formed
tree of symbols every window begins where the declaration before it has ended and ends
before the name it belongs to; so the windows follow one another, and as offsets grow with
positions, so do the pieces of text that they stand for.
-/

namespace EndpointTrace

def Document.bytes (document : Document) (range : Range) : Set Nat :=
  Set.Ico (document.offsetOf range.start) (document.offsetOf range.stop)

theorem Document.disjoint_bytes (document : Document) {a b : Range}
    (hle : a.stop ≤ b.start) : Disjoint (document.bytes a) (document.bytes b) := by
  apply Set.disjoint_left.mpr
  intro offset ha hb
  exact absurd (Nat.lt_of_lt_of_le ha.2 (document.offsetOf_mono hle)) (Nat.not_lt.mpr hb.1)

theorem Position.line_le {a b : Position} (hle : a ≤ b) : a.line ≤ b.line := by
  rcases Position.le_def.mp hle with hlt | ⟨heq, _⟩
  · exact Nat.le_of_lt hlt
  · exact Nat.le_of_eq heq

namespace Extraction

/-!
## The windows that are read
-/

def controls (rules : AnnotationRules) (document : Document) (header : Range) : Bool :=
  (basePaths? rules (document.textIn header)).isSome

def windowsOfSite (controls : Range → Bool) (site : TypeSite) : List Range :=
  site.header :: if controls site.header then (handlers site.symbol).map HandlerSite.window else []

def windowsRead (rules : AnnotationRules) (windowLines : Nat) (document : Document)
    (symbols : List Symbol) : List Range :=
  (sitesIn windowLines none symbols).flatMap (windowsOfSite (controls rules document))

theorem endpointsOfType_congr (rules : AnnotationRules) (file : FilePath)
    {document other : Document} {site : TypeSite}
    (hsame : ∀ window ∈ windowsOfSite (controls rules document) site,
      other.textIn window = document.textIn window) :
    endpointsOfType rules file other site = endpointsOfType rules file document site := by
  unfold endpointsOfType
  rw [hsame site.header List.mem_cons_self]
  cases hbases : basePaths? rules (document.textIn site.header) with
  | none =>
      rfl
  | some bases =>
      apply List.flatMap_congr
      intro handler hhandler
      have hcontrols : controls rules document site.header = true := by
        rw [controls, hbases, Option.isSome_some]
      have hmem : handler.window ∈ windowsOfSite (controls rules document) site := by
        rw [windowsOfSite, if_pos hcontrols]
        exact List.mem_cons_of_mem _ (List.mem_map_of_mem hhandler)
      unfold endpointsOf
      rw [hsame handler.window hmem]

/-- The endpoints of a file depend on the text in the windows only. -/
theorem endpoints_congr (rules : AnnotationRules) (windowLines : Nat) (file : FilePath)
    {document other : Document} {symbols : List Symbol}
    (hsame : ∀ window ∈ windowsRead rules windowLines document symbols,
      other.textIn window = document.textIn window) :
    endpoints rules windowLines file other symbols =
      endpoints rules windowLines file document symbols := by
  apply List.flatMap_congr
  intro site hsite
  apply endpointsOfType_congr
  intro window hwindow
  exact hsame window (List.mem_flatMap.mpr ⟨site, hsite, hwindow⟩)

/-!
## The windows in the order of the text
-/

/-- A window, with the siblings that are declared before its own declaration. -/
structure Window where
  range : Range
  earlier : List Symbol

mutual

/-- The windows of a symbol and of all that is inside it.  The symbol stands behind the
siblings `earlier`, in a controller or not; `floor` is where the declaration before it
ends. -/
def windowsOf (controls : Range → Bool) (windowLines : Nat) (inController : Bool)
    (earlier : List Symbol) (floor : Option Position) : Symbol → List Window
  | ⟨_, kind, full, selection, children⟩ =>
      if kind.isType then
        let header := headerWindow windowLines floor full selection
        ⟨header, earlier⟩ ::
          windowsIn controls windowLines (controls header) [] (some selection.stop) children
      else if kind = .method ∧ inController then
        floor.toList.map fun floor => ⟨⟨floor, selection.start⟩, earlier⟩
      else []

def windowsIn (controls : Range → Bool) (windowLines : Nat) (inController : Bool)
    (earlier : List Symbol) (floor : Option Position) : List Symbol → List Window
  | [] => []
  | symbol :: rest =>
      windowsOf controls windowLines inController earlier floor symbol
        ++ windowsIn controls windowLines inController (earlier ++ [symbol])
          (some symbol.fullRange.stop) rest

end

def windows (rules : AnnotationRules) (windowLines : Nat) (document : Document)
    (symbols : List Symbol) : List Window :=
  windowsIn (controls rules document) windowLines false [] none symbols

/-!
## Both orders have the same windows
-/

section

variable (controls : Range → Bool) (windowLines : Nat)

def windowsReadIn (inController : Bool) (floor : Position) (members : List Symbol) :
    List Range :=
  (if inController then (handlersFrom floor members).map HandlerSite.window else []) ++
    (sitesIn windowLines (some floor) members).flatMap (windowsOfSite controls)

theorem windowsReadIn_outside (floor : Position) (members : List Symbol) :
    windowsReadIn controls windowLines false floor members =
      (sitesIn windowLines (some floor) members).flatMap (windowsOfSite controls) :=
  rfl

theorem windowsReadIn_cons (inController : Bool) (floor : Position) (symbol : Symbol)
    (rest : List Symbol) :
    (windowsReadIn controls windowLines inController floor (symbol :: rest)).Perm
      (windowsReadIn controls windowLines inController floor [symbol] ++
        windowsReadIn controls windowLines inController symbol.fullRange.stop rest) := by
  have hhandlers : handlersFrom floor (symbol :: rest) =
      handlersFrom floor [symbol] ++ handlersFrom symbol.fullRange.stop rest := by
    rw [handlersFrom, handlersFrom, handlersFrom]
    split <;> rfl
  have hsites : sitesIn windowLines (some floor) (symbol :: rest) =
      sitesIn windowLines (some floor) [symbol] ++
        sitesIn windowLines (some symbol.fullRange.stop) rest := by
    rw [sitesIn, sitesIn, sitesIn, List.append_nil]
  unfold windowsReadIn
  rw [hsites, List.flatMap_append]
  split
  · rw [hhandlers, List.map_append, List.append_assoc, List.append_assoc]
    exact List.Perm.append_left _ (List.perm_append_comm_assoc _ _ _)
  · exact List.Perm.refl _

theorem windowsReadIn_method (inController : Bool) (floor : Position) {symbol : Symbol}
    (hkind : symbol.kind = .method) :
    windowsReadIn controls windowLines inController floor [symbol] =
      if inController then [⟨floor, symbol.selectionRange.start⟩] else [] := by
  cases symbol with
  | mk name kind full selection children =>
      subst hkind
      simp [windowsReadIn, handlersFrom, sitesIn, sitesOf, SymbolKind.isType]

theorem windowsReadIn_other (inController : Bool) (floor : Position) {symbol : Symbol}
    (hkind : symbol.kind ≠ .method) :
    windowsReadIn controls windowLines inController floor [symbol] =
      (sitesOf windowLines (some floor) symbol).flatMap (windowsOfSite controls) := by
  simp [windowsReadIn, handlersFrom, hkind, sitesIn]

theorem windowsOf_method (inController : Bool) (earlier : List Symbol) (floor : Position)
    {symbol : Symbol} (hkind : symbol.kind = .method) :
    windowsOf controls windowLines inController earlier (some floor) symbol =
      if inController then [⟨⟨floor, symbol.selectionRange.start⟩, earlier⟩] else [] := by
  cases symbol with
  | mk name kind full selection children =>
      subst hkind
      simp [windowsOf, SymbolKind.isType]

mutual

theorem windowsOf_perm (inController : Bool) (earlier : List Symbol)
    (floor : Option Position) : (symbol : Symbol) → symbol.kind ≠ .method →
    ((windowsOf controls windowLines inController earlier floor symbol).map
      Window.range).Perm ((sitesOf windowLines floor symbol).flatMap (windowsOfSite controls))
  | ⟨name, kind, full, selection, children⟩, hkind => by
      rw [windowsOf, sitesOf]
      split
      · have hchildren := windowsIn_perm (controls (headerWindow windowLines floor full selection))
          [] selection.stop children
        exact List.Perm.cons _ hchildren
      · rw [if_neg fun hmethod => hkind hmethod.1]
        exact List.Perm.refl _

theorem windowsIn_perm (inController : Bool) (earlier : List Symbol) (floor : Position) :
    (members : List Symbol) →
    ((windowsIn controls windowLines inController earlier (some floor) members).map
      Window.range).Perm (windowsReadIn controls windowLines inController floor members)
  | [] => by
      rw [windowsIn, windowsReadIn]
      split <;> exact List.Perm.refl _
  | symbol :: rest => by
      have hrest := windowsIn_perm inController (earlier ++ [symbol]) symbol.fullRange.stop rest
      have hsymbol : ((windowsOf controls windowLines inController earlier (some floor)
          symbol).map Window.range).Perm
            (windowsReadIn controls windowLines inController floor [symbol]) := by
        by_cases hkind : symbol.kind = .method
        · rw [windowsReadIn_method controls windowLines inController floor hkind]
          rw [windowsOf_method controls windowLines inController earlier floor hkind]
          split <;> exact List.Perm.refl _
        · rw [windowsReadIn_other controls windowLines inController floor hkind]
          exact windowsOf_perm inController earlier (some floor) symbol hkind
      rw [windowsIn, List.map_append]
      exact (hsymbol.append hrest).trans
        (windowsReadIn_cons controls windowLines inController floor symbol rest).symm

end

theorem windowsIn_perm_top (earlier : List Symbol) (symbols : List Symbol) :
    ((windowsIn controls windowLines false earlier none symbols).map Window.range).Perm
      ((sitesIn windowLines none symbols).flatMap (windowsOfSite controls)) := by
  cases symbols with
  | nil =>
      exact List.Perm.refl _
  | cons symbol rest =>
      have hrest := windowsIn_perm controls windowLines false (earlier ++ [symbol])
        symbol.fullRange.stop rest
      rw [windowsReadIn_outside] at hrest
      rw [windowsIn, sitesIn, List.map_append, List.flatMap_append]
      refine List.Perm.append ?_ hrest
      by_cases hkind : symbol.kind = .method
      · cases symbol with
        | mk name kind full selection children =>
            subst hkind
            simp [windowsOf, sitesOf, SymbolKind.isType]
      · exact windowsOf_perm controls windowLines false earlier none symbol hkind

end

theorem windows_perm (rules : AnnotationRules) (windowLines : Nat) (document : Document)
    (symbols : List Symbol) :
    ((windows rules windowLines document symbols).map Window.range).Perm
      (windowsRead rules windowLines document symbols) :=
  windowsIn_perm_top (controls rules document) windowLines [] symbols

/-!
## The windows follow one another
-/

def FloorBelow (floor : Option Position) (position : Position) : Prop :=
  ∀ last, floor = some last → last ≤ position

theorem FloorBelow.mono {floor : Option Position} {a b : Position}
    (hfloor : FloorBelow floor a) (hle : a ≤ b) : FloorBelow floor b :=
  fun last hlast => Position.le_trans (hfloor last hlast) hle

/-- No window reaches back behind the declaration before. -/
theorem floorBelow_headerWindow (windowLines : Nat) {floor : Option Position}
    {full selection : Range} (hfloor : FloorBelow floor full.start)
    (hbefore : full.start ≤ selection.start) :
    FloorBelow floor (headerWindow windowLines floor full selection).start := by
  unfold headerWindow
  split
  · exact hfloor
  · intro last hlast
    have hname : last ≤ selection.start := Position.le_trans (hfloor last hlast) hbefore
    simp only [lineWindowStart, hlast]
    split
    · exact Position.le_refl _
    · rename_i hstart
      exact Position.not_lt.mp fun hlt => hstart ⟨hlt, hname⟩

theorem stop_headerWindow (windowLines : Nat) (floor : Option Position)
    (full selection : Range) :
    (headerWindow windowLines floor full selection).stop = selection.start := by
  unfold headerWindow
  split <;> rfl

/-- The siblings have ended where the declaration before ends. -/
def EndedBy (floor : Option Position) (siblings : List Symbol) : Prop :=
  ∀ sibling ∈ siblings, ∃ last, floor = some last ∧ sibling.fullRange.stop ≤ last

theorem EndedBy.snoc {floor : Option Position} {siblings : List Symbol} {symbol : Symbol}
    (hended : EndedBy floor siblings) (hfloor : FloorBelow floor symbol.fullRange.start)
    (hformed : symbol.WellFormed) :
    EndedBy (some symbol.fullRange.stop) (siblings ++ [symbol]) := by
  intro sibling hsibling
  refine ⟨symbol.fullRange.stop, rfl, ?_⟩
  rcases List.mem_append.mp hsibling with hmem | hmem
  · rcases hended sibling hmem with ⟨last, hlast, hle⟩
    exact Position.le_trans hle (Position.le_trans (hfloor last hlast) hformed.start_le_stop)
  · rw [List.mem_singleton.mp hmem]
    exact Position.le_refl _

/-- Where a window may lie: behind the declaration before its own and behind all siblings
before that, and not after the end of its own. -/
structure Window.Placed (floor : Option Position) (stop : Position) (window : Window) :
    Prop where
  start : FloorBelow floor window.range.start
  stop : window.range.stop ≤ stop
  earlier : ∀ sibling ∈ window.earlier, sibling.fullRange.stop ≤ window.range.start

theorem Window.placed_of_endedBy {floor : Option Position} {stop : Position}
    {window : Window} (hstart : FloorBelow floor window.range.start)
    (hstop : window.range.stop ≤ stop) (hended : EndedBy floor window.earlier) :
    window.Placed floor stop := by
  refine ⟨hstart, hstop, ?_⟩
  intro sibling hsibling
  rcases hended sibling hsibling with ⟨last, hlast, hle⟩
  exact Position.le_trans hle (hstart last hlast)

def WindowsInOrder (windows : List Window) : Prop :=
  windows.Pairwise fun a b => a.range.stop ≤ b.range.start

section

variable (controls : Range → Bool) (windowLines : Nat)

mutual

theorem windowsInOrder_of (inController : Bool) (earlier : List Symbol)
    (floor : Option Position) : (symbol : Symbol) → symbol.WellFormed →
    FloorBelow floor symbol.fullRange.start → EndedBy floor earlier →
    WindowsInOrder (windowsOf controls windowLines inController earlier floor symbol) ∧
      ∀ window ∈ windowsOf controls windowLines inController earlier floor symbol,
        window.Placed floor symbol.fullRange.stop
  | ⟨name, kind, full, selection, children⟩, hformed, hfloor, hended => by
      cases hformed with
      | mk before named behind inside ordered formed =>
          have hselection : selection.start ≤ full.stop := Position.le_trans named behind
          have hname : full.start ≤ selection.stop := Position.le_trans before named
          rw [windowsOf]
          split
          · -- a type: its header, then the windows inside it, all behind its name
            have hheader := floorBelow_headerWindow windowLines hfloor before
            have hstop := stop_headerWindow windowLines floor full selection
            have hchildren := windowsInOrder_in
              (controls (headerWindow windowLines floor full selection)) []
              (some selection.stop) children ⟨ordered, formed⟩
              (by
                intro child hchild last hlast
                rw [← Option.some.inj hlast]
                exact (inside child hchild).1)
              (by
                intro sibling hsibling
                cases hsibling)
            constructor
            · apply List.pairwise_cons.mpr
              refine ⟨?_, hchildren.1⟩
              intro window hwindow
              rcases hchildren.2 window hwindow with ⟨child, _, hplaced⟩
              rw [hstop]
              exact Position.le_trans named (hplaced.start _ rfl)
            · intro window hwindow
              rcases List.mem_cons.mp hwindow with rfl | hmem
              · exact Window.placed_of_endedBy hheader (hstop.symm ▸ hselection) hended
              · rcases hchildren.2 window hmem with ⟨child, hchild, hplaced⟩
                refine ⟨?_, ?_, hplaced.earlier⟩
                · intro last hlast
                  exact Position.le_trans (hfloor.mono hname last hlast) (hplaced.start _ rfl)
                · exact Position.le_trans hplaced.stop (inside child hchild).2
          · split
            · cases floor with
              | none =>
                  constructor
                  · exact List.Pairwise.nil
                  · intro window hwindow
                    cases hwindow
              | some last =>
                  constructor
                  · exact List.pairwise_singleton _ _
                  · intro window hwindow
                    rw [List.mem_singleton.mp hwindow]
                    exact Window.placed_of_endedBy
                      (fun other hlast => Option.some.inj hlast ▸ Position.le_refl _) hselection
                      hended
            · constructor
              · exact List.Pairwise.nil
              · intro window hwindow
                cases hwindow

theorem windowsInOrder_in (inController : Bool) (earlier : List Symbol)
    (floor : Option Position) : (symbols : List Symbol) → Symbol.Siblings symbols →
    (∀ symbol ∈ symbols, FloorBelow floor symbol.fullRange.start) → EndedBy floor earlier →
    WindowsInOrder (windowsIn controls windowLines inController earlier floor symbols) ∧
      ∀ window ∈ windowsIn controls windowLines inController earlier floor symbols,
        ∃ symbol ∈ symbols, window.Placed floor symbol.fullRange.stop
  | [], _, _, _ => by
      rw [windowsIn]
      constructor
      · exact List.Pairwise.nil
      · intro window hwindow
        cases hwindow
  | symbol :: rest, hsiblings, hfloor, hended => by
      have hformed := hsiblings.wellFormed symbol List.mem_cons_self
      have hordered := List.pairwise_cons.mp hsiblings.ordered
      have hbelow := hfloor symbol List.mem_cons_self
      have hsymbol := windowsInOrder_of inController earlier floor symbol hformed hbelow hended
      have hrest := windowsInOrder_in inController (earlier ++ [symbol])
        (some symbol.fullRange.stop) rest
        ⟨hordered.2, fun other hother =>
          hsiblings.wellFormed other (List.mem_cons_of_mem _ hother)⟩
        (by
          intro other hother last hlast
          rw [← Option.some.inj hlast]
          exact hordered.1 other hother)
        (hended.snoc hbelow hformed)
      rw [windowsIn]
      constructor
      · apply List.pairwise_append.mpr
        refine ⟨hsymbol.1, hrest.1, ?_⟩
        intro a ha b hb
        rcases hrest.2 b hb with ⟨later, _, hplaced⟩
        exact Position.le_trans (hsymbol.2 a ha).stop (hplaced.start _ rfl)
      · intro window hwindow
        rcases List.mem_append.mp hwindow with hmem | hmem
        · exact ⟨symbol, List.mem_cons_self, hsymbol.2 window hmem⟩
        · rcases hrest.2 window hmem with ⟨later, hlater, hplaced⟩
          refine ⟨later, List.mem_cons_of_mem _ hlater, ?_, hplaced.stop, hplaced.earlier⟩
          intro last hlast
          exact Position.le_trans (hbelow.mono hformed.start_le_stop last hlast)
            (hplaced.start _ rfl)

end

end

/-- The windows of well-formed symbols are in the order of the text. -/
theorem windowsInOrder (rules : AnnotationRules) (windowLines : Nat) (document : Document)
    {symbols : List Symbol} (hsymbols : Symbol.Siblings symbols) :
    WindowsInOrder (windows rules windowLines document symbols) ∧
      ∀ window ∈ windows rules windowLines document symbols,
        ∀ sibling ∈ window.earlier, sibling.fullRange.stop ≤ window.range.start := by
  have hordered := windowsInOrder_in (controls rules document) windowLines false [] none symbols
    hsymbols
    (by
      intro symbol hsymbol last hlast
      cases hlast)
    (by
      intro sibling hsibling
      cases hsibling)
  refine ⟨hordered.1, ?_⟩
  intro window hwindow
  rcases hordered.2 window hwindow with ⟨symbol, _, hplaced⟩
  exact hplaced.earlier

/-!
## Handlers
-/

mutual

theorem wellFormed_of_mem_sitesOf (windowLines : Nat) (floor : Option Position) :
    (symbol : Symbol) → symbol.WellFormed →
    ∀ site ∈ sitesOf windowLines floor symbol, site.symbol.WellFormed
  | ⟨name, kind, full, selection, children⟩, hformed => by
      intro site hsite
      rw [sitesOf] at hsite
      split at hsite
      · rcases List.mem_cons.mp hsite with rfl | hmem
        · exact hformed
        · exact wellFormed_of_mem_sitesIn windowLines (some selection.stop) children
            hformed.siblings.wellFormed site hmem
      · cases hsite

theorem wellFormed_of_mem_sitesIn (windowLines : Nat) (floor : Option Position) :
    (symbols : List Symbol) → (∀ symbol ∈ symbols, symbol.WellFormed) →
    ∀ site ∈ sitesIn windowLines floor symbols, site.symbol.WellFormed
  | [], _ => by
      intro site hsite
      cases hsite
  | symbol :: rest, hformed => by
      intro site hsite
      rcases List.mem_append.mp hsite with hmem | hmem
      · exact wellFormed_of_mem_sitesOf windowLines floor symbol
          (hformed symbol List.mem_cons_self) site hmem
      · exact wellFormed_of_mem_sitesIn windowLines (some symbol.fullRange.stop) rest
          (fun other hother => hformed other (List.mem_cons_of_mem _ hother)) site hmem

end

def HandlerSite.gap (handler : HandlerSite) : Range :=
  ⟨handler.window.start, handler.symbol.fullRange.start⟩

def HandlerSite.declaration (handler : HandlerSite) : Range :=
  ⟨handler.symbol.fullRange.start, handler.symbol.selectionRange.start⟩

/-- The window is made of the gap and the declaration. -/
structure HandlerSite.Split (handler : HandlerSite) : Prop where
  gap : handler.window.start ≤ handler.symbol.fullRange.start
  declaration : handler.symbol.fullRange.start ≤ handler.symbol.selectionRange.start
  stop : handler.window.stop = handler.symbol.selectionRange.start

theorem HandlerSite.Split.textIn_window {handler : HandlerSite} (hsplit : handler.Split)
    (document : Document) :
    document.textIn handler.window =
      document.textIn handler.gap ++ document.textIn handler.declaration := by
  have hwindow : handler.window =
      ⟨handler.window.start, handler.symbol.selectionRange.start⟩ := by
    rw [← hsplit.stop]
  rw [hwindow]
  exact (document.textIn_append hsplit.gap hsplit.declaration).symm

theorem handlersFrom_split {previous : Position} {members : List Symbol}
    (hmembers : Symbol.Siblings members)
    (hprevious : ∀ member ∈ members, previous ≤ member.fullRange.start) :
    ∀ handler ∈ handlersFrom previous members, handler.symbol ∈ members ∧ handler.Split := by
  induction members generalizing previous with
  | nil =>
      intro handler hhandler
      cases hhandler
  | cons member rest ih =>
      have hformed := hmembers.wellFormed member List.mem_cons_self
      have hordered := List.pairwise_cons.mp hmembers.ordered
      have hrest := ih ⟨hordered.2, fun other hother =>
        hmembers.wellFormed other (List.mem_cons_of_mem _ hother)⟩ hordered.1
      have hlater : ∀ handler ∈ handlersFrom member.fullRange.stop rest,
          handler.symbol ∈ member :: rest ∧ handler.Split := by
        intro handler hhandler
        exact ⟨List.mem_cons_of_mem _ (hrest handler hhandler).1, (hrest handler hhandler).2⟩
      intro handler hhandler
      rw [handlersFrom] at hhandler
      split at hhandler
      · rcases List.mem_cons.mp hhandler with rfl | hmem
        · exact ⟨List.mem_cons_self, hprevious member List.mem_cons_self,
            hformed.before_selection, rfl⟩
        · exact hlater handler hmem
      · exact hlater handler hhandler

theorem handlers_split {type : Symbol} (htype : type.WellFormed) :
    ∀ handler ∈ handlers type, handler.symbol ∈ type.children ∧ handler.Split :=
  handlersFrom_split htype.siblings fun _ hmember => (htype.child_inside hmember).1

theorem handlers_bounds {type : Symbol} (htype : type.WellFormed) :
    ∀ handler ∈ handlers type,
      handler.window.start ≤ handler.symbol.selectionRange.start ∧
        handler.symbol.selectionRange.start ≤ handler.symbol.fullRange.stop := by
  intro handler hhandler
  rcases handlers_split htype handler hhandler with ⟨hmember, hsplit⟩
  exact ⟨Position.le_trans hsplit.gap hsplit.declaration,
    (htype.siblings.wellFormed handler.symbol hmember).selection_le⟩

def HandlerSite.endpoint (handler : HandlerSite) (file : FilePath) (method : Method)
    (base path : String) : Endpoint where
  method := method
  path := RoutePath.combine base path
  handler := handler.symbol.name
  location := ⟨file, handler.symbol.selectionRange.start⟩
  firstLine := handler.window.start.line
  lastLine := handler.symbol.fullRange.stop.line

theorem mem_endpointsOf {rules : AnnotationRules} {file : FilePath} {document : Document}
    {bases : List String} {handler : HandlerSite} {endpoint : Endpoint} :
    endpoint ∈ endpointsOf rules file document bases handler ↔
      ∃ route, rules.route? (document.textIn handler.window) = some route ∧
        ∃ base ∈ bases, ∃ path ∈ route.paths,
          endpoint = handler.endpoint file route.method base path := by
  unfold endpointsOf
  cases hroute : rules.route? (document.textIn handler.window) with
  | none =>
      simp only [List.not_mem_nil, reduceCtorEq, false_and, exists_false]
  | some route =>
      simp only [List.mem_flatMap, List.mem_map, Option.some.injEq, exists_eq_left',
        HandlerSite.endpoint, eq_comm]

theorem mem_endpoints {rules : AnnotationRules} {windowLines : Nat} {file : FilePath}
    {document : Document} {symbols : List Symbol} {endpoint : Endpoint} :
    endpoint ∈ endpoints rules windowLines file document symbols ↔
      ∃ site ∈ sitesIn windowLines none symbols, ∃ bases,
        basePaths? rules (document.textIn site.header) = some bases ∧
          ∃ handler ∈ handlers site.symbol,
            endpoint ∈ endpointsOf rules file document bases handler := by
  have hoftype : ∀ site, endpoint ∈ endpointsOfType rules file document site ↔
      ∃ bases, basePaths? rules (document.textIn site.header) = some bases ∧
        ∃ handler ∈ handlers site.symbol,
          endpoint ∈ endpointsOf rules file document bases handler := by
    intro site
    unfold endpointsOfType
    cases hbases : basePaths? rules (document.textIn site.header) with
    | none =>
        simp only [List.not_mem_nil, reduceCtorEq, false_and, exists_false]
    | some bases =>
        simp only [List.mem_flatMap, Option.some.injEq, exists_eq_left']
  simp only [endpoints, List.mem_flatMap, hoftype]

theorem endpointsOf_bounds {rules : AnnotationRules} {file : FilePath} {document : Document}
    {bases : List String} {handler : HandlerSite} {endpoint : Endpoint}
    (hendpoint : endpoint ∈ endpointsOf rules file document bases handler) :
    endpoint.firstLine = handler.window.start.line ∧
      endpoint.location.position = handler.symbol.selectionRange.start ∧
      endpoint.lastLine = handler.symbol.fullRange.stop.line := by
  rcases mem_endpointsOf.mp hendpoint with ⟨_, _, _, _, _, _, rfl⟩
  exact ⟨rfl, rfl, rfl⟩

theorem endpoint_lines {rules : AnnotationRules} {windowLines : Nat} {file : FilePath}
    {document : Document} {symbols : List Symbol} (hsymbols : Symbol.Siblings symbols)
    {endpoint : Endpoint}
    (hendpoint : endpoint ∈ endpoints rules windowLines file document symbols) :
    endpoint.firstLine ≤ endpoint.location.position.line ∧
      endpoint.location.position.line ≤ endpoint.lastLine := by
  rcases mem_endpoints.mp hendpoint with ⟨site, hsite, _, _, handler, hhandler, hof⟩
  have htype := wellFormed_of_mem_sitesIn windowLines none symbols hsymbols.wellFormed site hsite
  rcases endpointsOf_bounds hof with ⟨hfirst, hposition, hlast⟩
  rcases handlers_bounds htype handler hhandler with ⟨hstart, hstop⟩
  rw [hfirst, hposition, hlast]
  exact ⟨Position.line_le hstart, Position.line_le hstop⟩

/-!
## The pieces of text
-/

/-- The windows of a file stand for pieces of text that do not overlap, and none reaches
back into a sibling declared before; the endpoints are read from these pieces alone, and
their lines enclose the name of the handler.  The symbols of a source whose syntax tree
nests are of the form that is asked for. -/
theorem windows_disjoint (rules : AnnotationRules) (windowLines : Nat) (file : FilePath)
    (document : Document) :
    (∀ {symbols : List Symbol}, Symbol.Siblings symbols →
      ((windows rules windowLines document symbols).map Window.range).Perm
          (windowsRead rules windowLines document symbols) ∧
        (windows rules windowLines document symbols).Pairwise
          (fun a b => Disjoint (document.bytes a.range) (document.bytes b.range)) ∧
        (∀ window ∈ windows rules windowLines document symbols,
          ∀ sibling ∈ window.earlier, sibling.fullRange.stop ≤ window.range.start ∧
            Disjoint (document.bytes sibling.fullRange) (document.bytes window.range)) ∧
        ∀ endpoint ∈ endpoints rules windowLines file document symbols,
          endpoint.firstLine ≤ endpoint.location.position.line ∧
            endpoint.location.position.line ≤ endpoint.lastLine) ∧
      (∀ {symbols : List Symbol} {other : Document},
        (∀ window ∈ windowsRead rules windowLines document symbols,
          other.textIn window = document.textIn window) →
        endpoints rules windowLines file other symbols =
          endpoints rules windowLines file document symbols) ∧
      ∀ {tree : List Java.Node} {start stop : Position},
        Java.NodesInOrder start stop tree → Symbol.Siblings (Java.symbols tree) := by
  refine ⟨?_, endpoints_congr rules windowLines file, Java.siblings_symbols⟩
  intro symbols hsymbols
  rcases windowsInOrder rules windowLines document hsymbols with ⟨hordered, hearlier⟩
  refine ⟨windows_perm rules windowLines document symbols, ?_, ?_, ?_⟩
  · exact hordered.imp document.disjoint_bytes
  · intro window hwindow sibling hsibling
    have hstop := hearlier window hwindow sibling hsibling
    exact ⟨hstop, document.disjoint_bytes hstop⟩
  · intro endpoint hendpoint
    exact endpoint_lines hsymbols hendpoint

def nestedControllers : String :=
  "@RestController\nclass A \x7b\n  @GetMapping(\"/a\") void f() \x7b\x7d\n" ++
    "  @Controller class B \x7b\n    @PutMapping(\"/b\")\n    void g() \x7b\x7d\n  \x7d\n\x7d\n"

def nestedControllersThrowing : String :=
  "@RestController\nclass A \x7b\n  @GetMapping(\"/a\") void f() throws E \x7b\x7d\n" ++
    "  @Controller class B \x7b\n    @PutMapping(\"/b\")\n    void g() \x7b\x7d\n  \x7d\n\x7d\n"

def nestedTree : List Java.Node :=
  [.typeDecl .classType ⟨⟨0, 0⟩, ⟨7, 1⟩⟩ (some ⟨"A", ⟨⟨1, 6⟩, ⟨1, 7⟩⟩⟩)
    [.callable .method ⟨⟨2, 2⟩, ⟨2, 31⟩⟩ (some ⟨"f", ⟨⟨2, 25⟩, ⟨2, 26⟩⟩⟩) [],
      .typeDecl .classType ⟨⟨3, 2⟩, ⟨6, 3⟩⟩ (some ⟨"B", ⟨⟨3, 20⟩, ⟨3, 21⟩⟩⟩)
        [.callable .method ⟨⟨4, 4⟩, ⟨5, 15⟩⟩ (some ⟨"g", ⟨⟨5, 9⟩, ⟨5, 10⟩⟩⟩) []]]]

theorem nodesInOrder_nestedTree : Java.NodesInOrder ⟨0, 0⟩ ⟨8, 0⟩ nestedTree := by
  refine ⟨⟨⟨0, 0⟩, ⟨7, 1⟩⟩, by decide, ⟨rfl, ⟨1, 7⟩, ?_, ?_⟩, ?_⟩
  · exact ⟨by decide, by decide, rfl⟩
  · refine ⟨⟨⟨2, 2⟩, ⟨2, 31⟩⟩, by decide, ⟨rfl, ⟨2, 26⟩, ?_, ?_⟩, ?_⟩
    · exact ⟨by decide, by decide, rfl⟩
    · exact (by decide : (⟨2, 26⟩ : Position) ≤ ⟨2, 31⟩)
    · refine ⟨⟨⟨3, 2⟩, ⟨6, 3⟩⟩, by decide, ⟨rfl, ⟨3, 21⟩, ?_, ?_⟩, ?_⟩
      · exact ⟨by decide, by decide, rfl⟩
      · refine ⟨⟨⟨4, 4⟩, ⟨5, 15⟩⟩, by decide, ⟨rfl, ⟨5, 10⟩, ?_, ?_⟩, ?_⟩
        · exact ⟨by decide, by decide, rfl⟩
        · exact (by decide : (⟨5, 10⟩ : Position) ≤ ⟨5, 15⟩)
        · exact (by decide : (⟨5, 15⟩ : Position) ≤ ⟨6, 3⟩)
      · exact (by decide : (⟨6, 3⟩ : Position) ≤ ⟨7, 1⟩)
  · exact (by decide : (⟨7, 1⟩ : Position) ≤ ⟨8, 0⟩)

theorem windows_disjoint_nestedControllers :
    Java.NodesInOrder ⟨0, 0⟩ ⟨8, 0⟩ nestedTree ∧
      (windows .standard 5 (.ofString nestedControllers) (Java.symbols nestedTree)).map
          Window.range =
        [⟨⟨0, 0⟩, ⟨1, 6⟩⟩, ⟨⟨1, 7⟩, ⟨2, 25⟩⟩, ⟨⟨3, 2⟩, ⟨3, 20⟩⟩, ⟨⟨3, 21⟩, ⟨5, 9⟩⟩] ∧
      (windows .standard 5 (.ofString nestedControllers) (Java.symbols nestedTree)).Pairwise
        (fun a b => Disjoint ((Document.ofString nestedControllers).bytes a.range)
          ((Document.ofString nestedControllers).bytes b.range)) ∧
      endpoints .standard 5 ⟨"A.java"⟩ (.ofString nestedControllersThrowing)
          (Java.symbols nestedTree) =
        endpoints .standard 5 ⟨"A.java"⟩ (.ofString nestedControllers)
          (Java.symbols nestedTree) := by
  have hfile := windows_disjoint .standard 5 ⟨"A.java"⟩ (.ofString nestedControllers)
  have hsymbols := hfile.2.2 nodesInOrder_nestedTree
  have htexts : ∀ window ∈ windowsRead .standard 5 (.ofString nestedControllers)
      (Java.symbols nestedTree), (Document.ofString nestedControllersThrowing).textIn window =
        (Document.ofString nestedControllers).textIn window := by
    decide +kernel
  exact ⟨nodesInOrder_nestedTree, by decide +kernel, (hfile.1 hsymbols).2.1,
    hfile.2.1 htexts⟩

end Extraction
end EndpointTrace
