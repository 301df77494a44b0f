import ByteStacker.ParserFormat
import ByteStacker.SortedMap

/-!
# The two programs (`byte_stacker_in.cpp`, `byte_stacker_out.cpp`)

Both programs read their arguments in one loop: an argument with the prefix of the
points names one point, an argument with the prefix of the trunk names the trunk
sockets, anything else is skipped.  The points go into a map, so the last argument
for a point counts; `ParseTrunkPoint` clears its vector, so the last trunk argument
counts.  A malformed argument ends the program with 2, missing ones with 3.

`readArguments_outcome` says which outcome a command line has,
`arguments_undo_printing` that a printed configuration is read back from its
arguments in any order.
-/

def kLocalPrefix : Text := "--local".toList
def kExternalPrefix : Text := "--external".toList
def kTrunkPrefix : Text := "--trunk=".toList

/-- The output arguments of the `ParsePoint` for an endpoint. -/
structure EndpointArgs where
  id : PointID
  point : Endpoint
  deriving DecidableEq

/-- `ParsePoint` for an endpoint, with `make_address_v4` as a parameter.  The address and
the port go through local variables, the id is written directly. -/
def parsePointEndpoint (makeAddressV4 : Text → Option Bytes) (arg : Text) (out : EndpointArgs) :
    Bool × EndpointArgs :=
  let (ok, inner) := parsePoint arg ⟨out.id, [], 0⟩
  let out := { out with id := inner.id }
  if !ok then (false, out)
  else
    match makeAddressV4 inner.address with
    | none => (false, out)
    | some ip => (true, { out with point := ⟨ip, inner.port⟩ })

/-- What the arguments say: the points and the trunk sockets. -/
structure Configuration (υ : Type) where
  points : SortedMap PointID υ := .empty
  trunk : List Endpoint := []

/-- How `main` ends, or with what it goes on. -/
inductive MainOutcome (υ : Type)
  | exit (code : Nat)
  | serve (cfg : Configuration υ)

section Loop

variable {υ : Type} (pointPrefix : Text) (parse : Text → Option (PointID × υ))
  (makeAddressV4 : Text → Option Bytes)

/-- One turn of the loop over the arguments; `none` is `return 2`. -/
def readArgument (cfg : Configuration υ) (a : Text) : Option (Configuration υ) :=
  if pointPrefix.isPrefixOf a then
    match parse (a.drop pointPrefix.length) with
    | some (id, ep) => some { cfg with points := cfg.points.assign id ep }
    | none => none
  else if kTrunkPrefix.isPrefixOf a then
    match parseTrunkPoint makeAddressV4 (a.drop kTrunkPrefix.length) cfg.trunk with
    | some (true, trunk) => some { cfg with trunk := trunk }
    | _ => none
  else some cfg

/-- `main` up to the start of the service, without `argv[0]`. -/
def readArguments (argv : List Text) : MainOutcome υ :=
  if argv = [] then .exit 1
  else
    match argv.foldlM (readArgument pointPrefix parse makeAddressV4) {} with
    | none => .exit 2
    | some cfg =>
      if cfg.points.entries = [] then .exit 3
      else if cfg.trunk = [] then .exit 3
      else .serve cfg

end Loop

/-- The point of a `--local` argument. -/
def parseLocal (makeAddressV4 : Text → Option Bytes) (arg : Text) : Option (PointID × Endpoint) :=
  let (ok, out) := parsePointEndpoint makeAddressV4 arg ⟨0, ⟨[], 0⟩⟩
  if ok then some (out.id, out.point) else none

/-- The point of an `--external` argument. -/
def parseExternal (arg : Text) : Option (PointID × AddressPortPoint) :=
  let (ok, out) := parsePoint arg ⟨0, [], 0⟩
  if ok then some (out.id, ⟨String.ofList out.address, out.port⟩) else none

/-- `main` of byte_stacker_in: the points to listen on. -/
def byteStackerIn (makeAddressV4 : Text → Option Bytes) : List Text → MainOutcome Endpoint :=
  readArguments kLocalPrefix (parseLocal makeAddressV4) makeAddressV4

/-- `main` of byte_stacker_out: the points to connect to. -/
def byteStackerOut (makeAddressV4 : Text → Option Bytes) :
    List Text → MainOutcome AddressPortPoint :=
  readArguments kExternalPrefix parseExternal makeAddressV4

/-- The link fabric of byte_stacker_out: `eps.find(point)`. -/
def Configuration.linkFabric (cfg : Configuration AddressPortPoint) (point : PointID) :
    Option AddressPortPoint :=
  cfg.points.find? point

/-! ## What one argument says -/

/-- The meaning of an argument. -/
inductive Argument (υ : Type)
  | point (id : PointID) (ep : υ)
  | trunk (points : List Endpoint)
  | skipped
  | malformed

section Loop

variable {υ : Type} (pointPrefix : Text) (parse : Text → Option (PointID × υ))
  (makeAddressV4 : Text → Option Bytes)

def meaning (a : Text) : Argument υ :=
  if pointPrefix.isPrefixOf a then
    match parse (a.drop pointPrefix.length) with
    | some (id, ep) => .point id ep
    | none => .malformed
  else if kTrunkPrefix.isPrefixOf a then
    match parseTrunkPoint makeAddressV4 (a.drop kTrunkPrefix.length) [] with
    | some (true, trunk) => .trunk trunk
    | _ => .malformed
  else .skipped

/-- The points named by the arguments, in their order. -/
def pointsNamed (argv : List Text) : List (PointID × υ) :=
  argv.filterMap fun a =>
    match meaning pointPrefix parse makeAddressV4 a with
    | .point id ep => some (id, ep)
    | _ => none

/-- The trunk sockets the last trunk argument names, or else those given. -/
def trunkNamed (given : List Endpoint) (argv : List Text) : List Endpoint :=
  (argv.filterMap fun a =>
    match meaning pointPrefix parse makeAddressV4 a with
    | .trunk points => some points
    | _ => none).getLast?.getD given

end Loop

section Loop

variable {υ : Type} {pointPrefix : Text} {parse : Text → Option (PointID × υ)}
  {makeAddressV4 : Text → Option Bytes}

/-- A turn of the loop does what the argument says. -/
theorem readArgument_eq (cfg : Configuration υ) (a : Text) :
    readArgument pointPrefix parse makeAddressV4 cfg a =
      match meaning pointPrefix parse makeAddressV4 a with
      | .point id ep => some { cfg with points := cfg.points.assign id ep }
      | .trunk points => some { cfg with trunk := points }
      | .skipped => some cfg
      | .malformed => none := by
  have hclear : parseTrunkPoint makeAddressV4 (a.drop kTrunkPrefix.length) cfg.trunk =
      parseTrunkPoint makeAddressV4 (a.drop kTrunkPrefix.length) [] := rfl
  unfold readArgument meaning
  rw [hclear]
  split
  · cases parse (a.drop pointPrefix.length) with
    | none => rfl
    | some p => rfl
  · split
    · cases parseTrunkPoint makeAddressV4 (a.drop kTrunkPrefix.length) [] with
      | none => rfl
      | some r =>
          obtain ⟨ok, points⟩ := r
          cases ok with
          | true => rfl
          | false => rfl
    · rfl

/-- **The loop**, on arguments none of which is malformed. -/
theorem foldlM_readArgument (argv : List Text) (cfg : Configuration υ)
    (h : ∀ a ∈ argv, meaning pointPrefix parse makeAddressV4 a ≠ .malformed) :
    argv.foldlM (readArgument pointPrefix parse makeAddressV4) cfg = some
      { points := (pointsNamed pointPrefix parse makeAddressV4 argv).foldl
          (fun m e => m.assign e.1 e.2) cfg.points
        trunk := trunkNamed pointPrefix parse makeAddressV4 cfg.trunk argv } := by
  induction argv generalizing cfg with
  | nil => rfl
  | cons a rest ih =>
      obtain ⟨ha, hrest⟩ := List.forall_mem_cons.mp h
      rw [List.foldlM_cons, readArgument_eq]
      cases hmeaning : meaning pointPrefix parse makeAddressV4 a with
      | point id ep =>
          refine (ih _ hrest).trans ?_
          simp [pointsNamed, trunkNamed, hmeaning]
      | trunk points =>
          refine (ih _ hrest).trans ?_
          simp [pointsNamed, trunkNamed, hmeaning, List.getLast?_cons]
      | skipped =>
          refine (ih _ hrest).trans ?_
          simp [pointsNamed, trunkNamed, hmeaning]
      | malformed => exact absurd hmeaning ha

/-- One malformed argument stops the loop, wherever it stands. -/
theorem foldlM_malformed (argv : List Text) (cfg : Configuration υ)
    (h : ∃ a ∈ argv, meaning pointPrefix parse makeAddressV4 a = .malformed) :
    argv.foldlM (readArgument pointPrefix parse makeAddressV4) cfg = none := by
  induction argv generalizing cfg with
  | nil => simp at h
  | cons a rest ih =>
      rw [List.foldlM_cons, readArgument_eq]
      obtain ⟨b, hb, hbad⟩ := h
      cases hmeaning : meaning pointPrefix parse makeAddressV4 a with
      | malformed => rfl
      | _ =>
          rcases List.mem_cons.mp hb with rfl | hb
          · rw [hmeaning] at hbad
            cases hbad
          · exact ih _ ⟨b, hb, hbad⟩

/-- The map is empty exactly if no argument named a point. -/
theorem entries_assigned (es : List (PointID × υ)) :
    (es.foldl (fun m e => m.assign e.1 e.2) SortedMap.empty).entries = [] ↔ es = [] := by
  constructor
  · intro hnone
    by_contra hne
    obtain ⟨e, he⟩ := List.exists_mem_of_ne_nil es hne
    have hsome : (es.reverse.lookup e.1).isSome = true :=
      List.lookup_isSome_iff.mpr ⟨e, List.mem_reverse.mpr he, by simp⟩
    obtain ⟨v, hv⟩ := Option.isSome_iff_exists.mp hsome
    have hfind := SortedMap.find?_foldl_assign es .empty e.1
    rw [hv, Option.some_or] at hfind
    have hmem := SortedMap.find?_eq_some_iff.mp hfind
    rw [hnone] at hmem
    cases hmem
  · intro hnone
    rw [hnone]
    rfl

end Loop

/-- The command line names the configuration. -/
structure Names {υ : Type} (pointPrefix : Text) (parse : Text → Option (PointID × υ))
    (makeAddressV4 : Text → Option Bytes) (argv : List Text) (cfg : Configuration υ) : Prop where
  valid : ∀ a ∈ argv, meaning pointPrefix parse makeAddressV4 a ≠ .malformed
  points : ∀ id, cfg.points.find? id =
    (pointsNamed pointPrefix parse makeAddressV4 argv).reverse.lookup id
  trunk : cfg.trunk = trunkNamed pointPrefix parse makeAddressV4 [] argv
  somePoint : pointsNamed pointPrefix parse makeAddressV4 argv ≠ []
  someTrunk : cfg.trunk ≠ []

section Loop

variable {υ : Type} {pointPrefix : Text} {parse : Text → Option (PointID × υ)}
  {makeAddressV4 : Text → Option Bytes} {argv : List Text}

/-- So the program exits with code 2. -/
theorem readArguments_malformed
    (h : ∃ a ∈ argv, meaning pointPrefix parse makeAddressV4 a = .malformed) :
    readArguments pointPrefix parse makeAddressV4 argv = .exit 2 := by
  have hne : argv ≠ [] := by
    obtain ⟨a, ha, _⟩ := h
    exact List.ne_nil_of_mem ha
  rw [readArguments, if_neg hne, foldlM_malformed argv {} h]

/-- Well-formed arguments without a point or without a trunk point exit with code 3. -/
theorem readArguments_missing (hne : argv ≠ [])
    (hvalid : ∀ a ∈ argv, meaning pointPrefix parse makeAddressV4 a ≠ .malformed)
    (h : pointsNamed pointPrefix parse makeAddressV4 argv = [] ∨
      trunkNamed pointPrefix parse makeAddressV4 [] argv = []) :
    readArguments pointPrefix parse makeAddressV4 argv = .exit 3 := by
  rw [readArguments, if_neg hne, foldlM_readArgument argv {} hvalid]
  simp only [entries_assigned]
  split
  · rfl
  · next hpoints => rw [if_pos (h.resolve_left hpoints)]

/-- **Arguments that name a configuration serve it.** -/
theorem readArguments_names {cfg : Configuration υ}
    (h : Names pointPrefix parse makeAddressV4 argv cfg) :
    readArguments pointPrefix parse makeAddressV4 argv = .serve cfg := by
  have hne : argv ≠ [] := by
    intro hnil
    exact h.somePoint (by rw [hnil]; rfl)
  have hpoints : (pointsNamed pointPrefix parse makeAddressV4 argv).foldl
      (fun m e => m.assign e.1 e.2) .empty = cfg.points := by
    refine SortedMap.ext_find? fun id => ?_
    rw [SortedMap.find?_foldl_assign, h.points]
    exact Option.or_none
  have hentries := (entries_assigned _).not.mpr h.somePoint
  rw [hpoints] at hentries
  rw [readArguments, if_neg hne, foldlM_readArgument argv {} h.valid, hpoints, ← h.trunk]
  simp only [if_neg hentries, if_neg h.someTrunk]

/-- Every command line has one of the four outcomes. -/
theorem readArguments_cases (pointPrefix : Text) (parse : Text → Option (PointID × υ))
    (makeAddressV4 : Text → Option Bytes) (argv : List Text) : argv = [] ∨
    (∃ a ∈ argv, meaning pointPrefix parse makeAddressV4 a = .malformed) ∨
    (argv ≠ [] ∧ (∀ a ∈ argv, meaning pointPrefix parse makeAddressV4 a ≠ .malformed) ∧
      (pointsNamed pointPrefix parse makeAddressV4 argv = [] ∨
        trunkNamed pointPrefix parse makeAddressV4 [] argv = [])) ∨
    ∃ cfg, Names pointPrefix parse makeAddressV4 argv cfg := by
  by_cases hnil : argv = []
  · exact Or.inl hnil
  · by_cases hbad : ∃ a ∈ argv, meaning pointPrefix parse makeAddressV4 a = .malformed
    · exact Or.inr (Or.inl hbad)
    · have hvalid : ∀ a ∈ argv, meaning pointPrefix parse makeAddressV4 a ≠ .malformed :=
        fun a ha heq => hbad ⟨a, ha, heq⟩
      by_cases hpoints : pointsNamed pointPrefix parse makeAddressV4 argv = []
      · exact Or.inr (Or.inr (Or.inl ⟨hnil, hvalid, Or.inl hpoints⟩))
      · by_cases htrunk : trunkNamed pointPrefix parse makeAddressV4 [] argv = []
        · exact Or.inr (Or.inr (Or.inl ⟨hnil, hvalid, Or.inr htrunk⟩))
        · refine Or.inr (Or.inr (Or.inr ⟨{
            points := (pointsNamed pointPrefix parse makeAddressV4 argv).foldl
              (fun m e => m.assign e.1 e.2) .empty
            trunk := trunkNamed pointPrefix parse makeAddressV4 [] argv },
            hvalid, fun id => ?_, rfl, hpoints, htrunk⟩))
          exact (SortedMap.find?_foldl_assign _ .empty id).trans Option.or_none

/-- **And the configuration served is the one that the arguments name.** -/
theorem names_of_serve {cfg : Configuration υ}
    (h : readArguments pointPrefix parse makeAddressV4 argv = .serve cfg) :
    Names pointPrefix parse makeAddressV4 argv cfg := by
  rcases readArguments_cases pointPrefix parse makeAddressV4 argv with
    rfl | hbad | ⟨hne, hvalid, hmissing⟩ | ⟨cfg', hnames⟩
  · cases h
  · cases (readArguments_malformed hbad).symm.trans h
  · cases (readArguments_missing hne hvalid hmissing).symm.trans h
  · cases (readArguments_names hnames).symm.trans h
    exact hnames

/-- **The outcome of a command line.**  The program serves the configuration in which
each point has the value of the last argument for it and the trunk sockets are those of
the last trunk argument, or it ends with 1, 2 or 3 for no arguments, a malformed one, or
no point or trunk socket named. -/
theorem readArguments_outcome (pointPrefix : Text) (parse : Text → Option (PointID × υ))
    (makeAddressV4 : Text → Option Bytes) (argv : List Text) :
    (∀ cfg, readArguments pointPrefix parse makeAddressV4 argv = .serve cfg ↔
      Names pointPrefix parse makeAddressV4 argv cfg) ∧
    ∀ code, readArguments pointPrefix parse makeAddressV4 argv = .exit code ↔
      (code = 1 ∧ argv = []) ∨
      (code = 2 ∧ ∃ a ∈ argv, meaning pointPrefix parse makeAddressV4 a = .malformed) ∨
      (code = 3 ∧ argv ≠ [] ∧ (∀ a ∈ argv, meaning pointPrefix parse makeAddressV4 a ≠ .malformed) ∧
        (pointsNamed pointPrefix parse makeAddressV4 argv = [] ∨
          trunkNamed pointPrefix parse makeAddressV4 [] argv = [])) := by
  refine ⟨fun cfg => ⟨names_of_serve, readArguments_names⟩, fun code => ⟨fun h => ?_, fun h => ?_⟩⟩
  · rcases readArguments_cases pointPrefix parse makeAddressV4 argv with
      rfl | hbad | ⟨hne, hvalid, hmissing⟩ | ⟨cfg', hnames⟩
    · cases h
      exact Or.inl ⟨rfl, rfl⟩
    · cases (readArguments_malformed hbad).symm.trans h
      exact Or.inr (Or.inl ⟨rfl, hbad⟩)
    · cases (readArguments_missing hne hvalid hmissing).symm.trans h
      exact Or.inr (Or.inr ⟨rfl, hne, hvalid, hmissing⟩)
    · cases (readArguments_names hnames).symm.trans h
  · rcases h with ⟨rfl, rfl⟩ | ⟨rfl, hbad⟩ | ⟨rfl, hne, hvalid, hmissing⟩
    · rfl
    · exact readArguments_malformed hbad
    · exact readArguments_missing hne hvalid hmissing

end Loop

/-! ## Printing the arguments -/

def printExternal (e : PointID × AddressPortPoint) : Text :=
  kExternalPrefix ++ printPoint ⟨e.1, e.2.address.toList, e.2.port⟩

def printLocal (e : PointID × Endpoint) : Text :=
  kLocalPrefix ++ printPoint
    ⟨e.1, ['.'].intercalate (e.2.address.map fun byte => Nat.toDigits 10 byte.toNat), e.2.port⟩

def printTrunk (ip : IPv4) (ports : List UInt16) : Text :=
  kTrunkPrefix ++ printTrunkPoint ip ports

/-- The client's point parser undoes the printer. -/
theorem parsePoint_printPoint {p : PointArgs} (hne : p.address ≠ []) (hcolon : ':' ∉ p.address)
    (out : PointArgs) : parsePoint (printPoint p) out = (true, p) := by
  have hreads : ReadsPoint (printPoint p) (idNumeral p.id) p.address (portNumeral p.port) :=
    ⟨rfl, hne, hcolon⟩
  rw [parsePoint_reads hreads, value_idNumeral, value_portNumeral]

/-- The server's point parser undoes it for a printable IPv4 address. -/
theorem parsePointEndpoint_printPoint {makeAddressV4 : Text → Option Bytes} {ip : IPv4}
    (hip : makeAddressV4 ip.text = some ip.bytes) (id : PointID) (port : UInt16)
    (out : EndpointArgs) :
    parsePointEndpoint makeAddressV4 (printPoint ⟨id, ip.text, port⟩) out =
      (true, ⟨id, ⟨ip.bytes, port⟩⟩) := by
  obtain ⟨hne, hcolon⟩ := ip.text_plain
  unfold parsePointEndpoint
  rw [parsePoint_printPoint hne hcolon]
  simp [hip]

/-- The trunk parser undoes its printer, for one port or more. -/
theorem parseTrunkPoint_printTrunkPoint {makeAddressV4 : Text → Option Bytes} {ip : IPv4}
    (hip : makeAddressV4 ip.text = some ip.bytes) {ports : List UInt16} (hports : ports ≠ [])
    (points : List Endpoint) :
    parseTrunkPoint makeAddressV4 (printTrunkPoint ip ports) points =
      some (true, ports.map fun port => { address := ip.bytes, port := port }) := by
  obtain ⟨hnonempty, hcolon⟩ := ip.text_plain
  have hreads : ReadsTrunk makeAddressV4 (printTrunkPoint ip ports) ip.text ip.bytes
      (ports.map portNumeral) false := by
    refine ⟨?_, hnonempty, hcolon, hip, Or.inl (by simpa using hports)⟩
    simp [printTrunkPoint, entries, portNumeral, Function.comp_def]
  rw [parseTrunkPoint_reads hreads, List.map_map]
  refine congrArg (fun points => some (true, points)) (List.map_congr_left fun port _ => ?_)
  rw [Function.comp_apply, Numeral.endpoint, value_portNumeral]

section Loop

variable {υ : Type} {pointPrefix : Text} {parse : Text → Option (PointID × υ)}
  {makeAddressV4 : Text → Option Bytes}

/-- The points and the trunk sockets a printed list of arguments names. -/
theorem named_printed {es : List (PointID × υ)} {printed : PointID × υ → Text} {trunk : Text}
    {sockets : List Endpoint}
    (hparse : ∀ e ∈ es, meaning pointPrefix parse makeAddressV4 (printed e) = .point e.1 e.2)
    (htrunk : meaning pointPrefix parse makeAddressV4 trunk = .trunk sockets) :
    pointsNamed pointPrefix parse makeAddressV4 (es.map printed ++ [trunk]) = es ∧
      (es.map printed ++ [trunk]).filterMap (fun a =>
        match meaning pointPrefix parse makeAddressV4 a with
        | .trunk points => some points
        | _ => none) = [sockets] := by
  induction es with
  | nil => simp [pointsNamed, htrunk]
  | cons e rest ih =>
      obtain ⟨he, hrest⟩ := List.forall_mem_cons.mp hparse
      obtain ⟨hpoints, hsockets⟩ := ih hrest
      refine ⟨?_, ?_⟩
      · rw [pointsNamed] at hpoints
        rw [pointsNamed, List.map_cons, List.cons_append, List.filterMap_cons, he]
        exact congrArg (e :: ·) hpoints
      · rw [List.map_cons, List.cons_append, List.filterMap_cons, he]
        exact hsockets

/-- **A printed configuration** is named by its arguments, in any order. -/
theorem names_printed {points : SortedMap PointID υ} {printed : PointID × υ → Text} {trunk : Text}
    {sockets : List Endpoint} {argv : List Text} (hpoints : points.entries ≠ [])
    (hsockets : sockets ≠ [])
    (hparse : ∀ e ∈ points.entries,
      meaning pointPrefix parse makeAddressV4 (printed e) = .point e.1 e.2)
    (htrunk : meaning pointPrefix parse makeAddressV4 trunk = .trunk sockets)
    (hargv : argv.Perm (points.entries.map printed ++ [trunk])) :
    Names pointPrefix parse makeAddressV4 argv { points := points, trunk := sockets } := by
  obtain ⟨hentries, hlast⟩ := named_printed hparse htrunk
  have hnamed : (pointsNamed pointPrefix parse makeAddressV4 argv).Perm points.entries :=
    (hargv.filterMap _).trans (.of_eq hentries)
  have hvalid : ∀ a ∈ argv, meaning pointPrefix parse makeAddressV4 a ≠ .malformed := by
    intro a ha hbad
    rcases List.mem_append.mp (hargv.subset ha) with hpoint | hlast
    · obtain ⟨e, he, rfl⟩ := List.mem_map.mp hpoint
      cases (hparse e he).symm.trans hbad
    · rw [List.mem_singleton.mp hlast] at hbad
      cases htrunk.symm.trans hbad
  have hone := (hargv.filterMap _).trans (.of_eq hlast)
  refine ⟨hvalid, fun id => ?_, ?_, ?_, hsockets⟩
  · exact (SortedMap.lookup_of_perm ((List.reverse_perm _).trans hnamed) id).symm
  · rw [trunkNamed, List.perm_singleton.mp hone]
    rfl
  · intro hnil
    rw [hnil] at hnamed
    exact hpoints (List.nil_perm.mp hnamed)

end Loop

section Print

variable {makeAddressV4 : Text → Option Bytes}

/-- The argument of a trunk socket is none for a point. -/
theorem meaning_printTrunk {υ : Type} {pointPrefix : Text} (parse : Text → Option (PointID × υ))
    {ip : IPv4} (hip : makeAddressV4 ip.text = some ip.bytes) {ports : List UInt16}
    (hports : ports ≠ []) (hother : pointPrefix.isPrefixOf (printTrunk ip ports) = false) :
    meaning pointPrefix parse makeAddressV4 (printTrunk ip ports) =
      .trunk (ports.map fun port => { address := ip.bytes, port := port }) := by
  have hprefix : kTrunkPrefix.isPrefixOf (printTrunk ip ports) = true :=
    List.isPrefixOf_iff_prefix.mpr (List.prefix_append _ _)
  have hdrop : (printTrunk ip ports).drop kTrunkPrefix.length = printTrunkPoint ip ports :=
    List.drop_left
  unfold meaning
  rw [if_neg (by simp [hother]), if_pos hprefix, hdrop,
    parseTrunkPoint_printTrunkPoint hip hports]

/-- An argument that starts with the prefix of the points is one. -/
theorem meaning_printed {υ : Type} {pointPrefix text : Text}
    {parse : Text → Option (PointID × υ)} {e : PointID × υ} (hparse : parse text = some e) :
    meaning pointPrefix parse makeAddressV4 (pointPrefix ++ text) = .point e.1 e.2 := by
  have hprefix : pointPrefix.isPrefixOf (pointPrefix ++ text) = true :=
    List.isPrefixOf_iff_prefix.mpr (List.prefix_append _ _)
  have hdrop : (pointPrefix ++ text).drop pointPrefix.length = text := List.drop_left
  unfold meaning
  rw [if_pos hprefix, hdrop, hparse]

/-- The endpoint has an address `make_address_v4` reads back. -/
def Printable (makeAddressV4 : Text → Option Bytes) (ep : Endpoint) : Prop :=
  ∃ ip : IPv4, makeAddressV4 ip.text = some ip.bytes ∧ ep.address = ip.bytes

/-- **The command lines of a deployment are read back**, their arguments in any order:
the one of byte_stacker_in with the points to listen on, the one of byte_stacker_out with
the points to connect to. -/
theorem arguments_undo_printing {ip : IPv4} {ports : List UInt16} {argv : List Text}
    (hip : makeAddressV4 ip.text = some ip.bytes) (hports : ports ≠ []) :
    (∀ points : SortedMap PointID Endpoint, points.entries ≠ [] →
      (∀ e ∈ points.entries, Printable makeAddressV4 e.2) →
      argv.Perm (points.entries.map printLocal ++ [printTrunk ip ports]) →
      byteStackerIn makeAddressV4 argv = .serve
        ⟨points, ports.map fun port => { address := ip.bytes, port := port }⟩) ∧
    ∀ points : SortedMap PointID AddressPortPoint, points.entries ≠ [] →
      (∀ e ∈ points.entries, e.2.address ≠ "" ∧ ':' ∉ e.2.address.toList) →
      argv.Perm (points.entries.map printExternal ++ [printTrunk ip ports]) →
      byteStackerOut makeAddressV4 argv = .serve
        ⟨points, ports.map fun port => { address := ip.bytes, port := port }⟩ := by
  have hsockets :
      (ports.map fun port => ({ address := ip.bytes, port := port } : Endpoint)) ≠ [] := by
    simpa using hports
  refine ⟨fun points hpoints haddress hargv => ?_, fun points hpoints haddress hargv => ?_⟩
  · refine readArguments_names (names_printed hpoints hsockets ?_
      (meaning_printTrunk _ hip hports rfl) hargv)
    intro e he
    obtain ⟨id, point, port⟩ := e
    obtain ⟨ip', hip', rfl⟩ := haddress _ he
    refine meaning_printed ?_
    rw [parseLocal, ← IPv4.text, parsePointEndpoint_printPoint hip']
    rfl
  · refine readArguments_names (names_printed hpoints hsockets ?_
      (meaning_printTrunk _ hip hports rfl) hargv)
    intro e he
    obtain ⟨id, address, port⟩ := e
    obtain ⟨hne, hcolon⟩ := haddress _ he
    refine meaning_printed ?_
    rw [parseExternal, parsePoint_printPoint (by simpa using hne) hcolon]
    simp

/-- One point and two trunk sockets, the trunk argument first. -/
theorem arguments_undo_printing_one :
    byteStackerIn loopback ["--trunk=127.0.0.1:9,10".toList, "--local7=127.0.0.1:80".toList] =
      .serve ⟨⟨[(7, ⟨[127, 0, 0, 1], 80⟩)], by simp⟩, [⟨[127, 0, 0, 1], 9⟩, ⟨[127, 0, 0, 1], 10⟩]⟩ ∧
    byteStackerOut loopback ["--trunk=127.0.0.1:9,10".toList, "--external7=host:80".toList] =
      .serve ⟨⟨[(7, ⟨"host", 80⟩)], by simp⟩, [⟨[127, 0, 0, 1], 9⟩, ⟨[127, 0, 0, 1], 10⟩]⟩ := by
  have htrunk : "--trunk=127.0.0.1:9,10".toList = printTrunk ⟨127, 0, 0, 1⟩ [9, 10] := by
    decide +kernel
  have hlocal : "--local7=127.0.0.1:80".toList = printLocal (7, ⟨[127, 0, 0, 1], 80⟩) := by
    decide +kernel
  have hexternal : "--external7=host:80".toList = printExternal (7, ⟨"host", 80⟩) := by
    decide +kernel
  have hip : loopback (⟨127, 0, 0, 1⟩ : IPv4).text = some (⟨127, 0, 0, 1⟩ : IPv4).bytes := by
    decide +kernel
  rw [htrunk, hlocal, hexternal]
  have hne : ([9, 10] : List UInt16) ≠ [] := List.cons_ne_nil _ _
  refine ⟨(arguments_undo_printing hip hne).1 _ (List.cons_ne_nil _ _) ?_ (.swap _ _ []),
    (arguments_undo_printing hip hne).2 _ (List.cons_ne_nil _ _) ?_ (.swap _ _ [])⟩
  · intro e he
    rw [List.mem_singleton.mp he]
    exact ⟨⟨127, 0, 0, 1⟩, hip, rfl⟩
  · intro e he
    rw [List.mem_singleton.mp he]
    exact ⟨by decide, by decide⟩

end Print
