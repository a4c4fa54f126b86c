import PointIPad.Foundation
import PointIPad.Lib.Runs

/-!
Connection strings: how the connection writes its parameters, and how libpq reads
them.

The connection puts each parameter between quotes, as it is. In a quoted value a
backslash takes the next character as it is, and the next quote ends the value.

**Main results.** Parameters without quotes and backslashes are read back, each
under its keyword (`conninfoParse_makeConnectionString`). A parameter with a quote
can set any option (`quote_sets_any`).
-/

namespace PointIPad

open Transition

/-! ### The options of libpq -/

/-- What libpq was built with. -/
structure LibpqBuild where
  useSSL : Bool
  kerberos : Bool
  gssLibraries : Bool
deriving DecidableEq

/-- The keywords of the table of options, in its order. -/
def PQconninfoOptions (build : LibpqBuild) : List String :=
  ["authtype", "service", "user", "password", "connect_timeout", "dbname", "host", "hostaddr",
    "port", "client_encoding", "tty", "options", "application_name", "fallback_application_name",
    "keepalives", "keepalives_idle", "keepalives_interval", "keepalives_count"]
  ++ (if build.useSSL then ["requiressl"] else [])
  ++ ["sslmode", "sslcert", "sslkey", "sslrootcert", "sslcrl", "requirepeer"]
  ++ (if build.kerberos then ["krbsrvname"] else [])
  ++ (if build.gssLibraries then ["gsslib"] else [])
  ++ ["replication"]

/-- A working copy of the table: keywords and values. -/
abbrev ConnOptions := List (String × Option String)

def conninfoInit (build : LibpqBuild) : ConnOptions :=
  (PQconninfoOptions build).map fun keyword => (keyword, none)

def conninfoGetval (options : ConnOptions) (keyword : String) : Option String :=
  (options.find? fun option => option.1 = keyword).bind Prod.snd

inductive ConninfoError where
  | missingEquals (pname : String)
  | unterminated
  | invalidOption (pname : String)
deriving DecidableEq, Repr

def ConninfoError.text : ConninfoError → String
  | .missingEquals pname =>
    "missing \"=\" after \"" ++ pname ++ "\" in connection info string\n"
  | .unterminated => "unterminated quoted string in connection info string\n"
  | .invalidOption pname => "invalid connection option \"" ++ pname ++ "\"\n"

/-- The value of the first option with the keyword is replaced. -/
def storeValue (options : ConnOptions) (pname pval : String) : Except ConninfoError ConnOptions :=
  match options with
  | [] => .error (.invalidOption pname)
  | option :: options =>
    if option.1 = pname then .ok ((option.1, some pval) :: options)
    else (storeValue options pname pval).map (option :: ·)

/-! ### Reading -/

/-- The blanks of the C locale. -/
def isspace (c : Char) : Bool :=
  c = ' ' || c = '\t' || c = '\n' || c = '\x0b' || c = '\x0c' || c = '\r'

def skipBlanks (cs : List Char) : List Char := cs.dropWhile isspace

/-- The name of a parameter, and what follows it and the blanks behind it. -/
def readName : List Char → List Char × List Char
  | [] => ([], [])
  | c :: cs =>
    if c = '=' then ([], c :: cs)
    else if isspace c then ([], skipBlanks cs)
    else ((c :: (readName cs).1), (readName cs).2)

def readPlainValue : List Char → List Char × List Char
  | [] => ([], [])
  | '\\' :: [] => ([], [])
  | '\\' :: c :: cs => (c :: (readPlainValue cs).1, (readPlainValue cs).2)
  | c :: cs => if isspace c then ([], cs) else (c :: (readPlainValue cs).1, (readPlainValue cs).2)

/-- The part of a quoted value behind its first quote. -/
def readQuotedValue : List Char → Option (List Char × List Char)
  | [] => none
  | '\\' :: [] => none
  | '\\' :: c :: cs => (readQuotedValue cs).map fun r => (c :: r.1, r.2)
  | '\'' :: cs => some ([], cs)
  | c :: cs => (readQuotedValue cs).map fun r => (c :: r.1, r.2)

def readValue (cs : List Char) : Except ConninfoError (List Char × List Char) :=
  if cs.head? = some '\'' then
    match readQuotedValue cs.tail with
    | some r => .ok r
    | none => .error .unterminated
  else .ok (readPlainValue cs)

/-- One parameter: its name and value, and what follows. -/
def readParameter (cs : List Char) : Except ConninfoError ((String × String) × List Char) :=
  let (pname, behind) := readName cs
  if behind.head? = some '=' then do
    let (pval, rest) ← readValue (skipBlanks behind.tail)
    .ok ((String.ofList pname, String.ofList pval), rest)
  else .error (.missingEquals (String.ofList pname))

theorem readName_length (cs : List Char) : (readName cs).2.length ≤ cs.length := by
  induction cs with
  | nil => exact Nat.le_refl 0
  | cons c cs ih =>
    rw [readName]
    split
    · exact Nat.le_refl _
    · split
      · exact Nat.le_succ_of_le (List.dropWhile_sublist isspace).length_le
      · exact Nat.le_succ_of_le ih

theorem readPlainValue_length (cs : List Char) : (readPlainValue cs).2.length ≤ cs.length := by
  fun_induction readPlainValue cs with
  | case1 => exact Nat.le_refl 0
  | case2 => exact Nat.zero_le _
  | case3 c cs ih => exact Nat.le_succ_of_le (Nat.le_succ_of_le ih)
  | case4 c cs _ _ blank => exact Nat.le_succ _
  | case5 c cs _ _ other ih => exact Nat.le_succ_of_le ih

theorem readQuotedValue_length {cs v rest : List Char} (h : readQuotedValue cs = some (v, rest)) :
    rest.length ≤ cs.length := by
  fun_induction readQuotedValue cs generalizing v rest with
  | case1 => cases h
  | case2 => cases h
  | case3 c cs ih =>
    obtain ⟨r, hr, heq⟩ := Option.map_eq_some_iff.mp h
    cases heq
    exact Nat.le_succ_of_le (Nat.le_succ_of_le (ih hr))
  | case4 cs =>
    cases h
    exact Nat.le_succ _
  | case5 c cs _ _ _ ih =>
    obtain ⟨r, hr, heq⟩ := Option.map_eq_some_iff.mp h
    cases heq
    exact Nat.le_succ_of_le (ih hr)

theorem readValue_length {cs v rest : List Char} (h : readValue cs = .ok (v, rest)) :
    rest.length ≤ cs.length := by
  rw [readValue] at h
  split at h
  · split at h
    · rename_i r hr
      cases h
      have htail := readQuotedValue_length hr
      rw [List.length_tail] at htail
      omega
    · cases h
  · have hlength := readPlainValue_length cs
    rw [Except.ok.inj h] at hlength
    exact hlength

theorem skipBlanks_length (cs : List Char) : (skipBlanks cs).length ≤ cs.length :=
  (List.dropWhile_sublist isspace).length_le

/-- A parameter takes up its equals sign at least. -/
theorem readParameter_length {cs rest : List Char} {p : String × String}
    (h : readParameter cs = .ok (p, rest)) : rest.length < cs.length := by
  have hname := readName_length cs
  rw [readParameter] at h
  dsimp only at h
  split at h
  · rename_i equals
    obtain ⟨⟨pval, rest'⟩, hvalue, h⟩ := bind_eq_ok.mp h
    cases h
    have hrest : rest'.length ≤ _ := readValue_length hvalue
    have hblanks := skipBlanks_length (readName cs).2.tail
    have hsome : (readName cs).2.length ≠ 0 := by
      intro none
      rw [List.eq_nil_of_length_eq_zero none] at equals
      cases equals
    rw [List.length_tail] at hblanks
    show rest'.length < cs.length
    omega
  · cases h

/-- The loop of `conninfo_parse`. -/
def conninfoFrom (cs : List Char) (options : ConnOptions) : Except ConninfoError ConnOptions :=
  match _hblanks : skipBlanks cs with
  | [] => .ok options
  | c :: behind =>
    match _hread : readParameter (c :: behind) with
    | .error e => .error e
    | .ok ((pname, pval), rest) => do
      let options ← storeValue options pname pval
      conninfoFrom rest options
termination_by cs.length
decreasing_by
  have hshorter := readParameter_length _hread
  have hskipped := skipBlanks_length cs
  rw [_hblanks] at hskipped
  omega

theorem conninfoFrom_eq (cs : List Char) (options : ConnOptions) :
    conninfoFrom cs options =
      if skipBlanks cs = [] then .ok options
      else (do
        let ((pname, pval), rest) ← readParameter (skipBlanks cs)
        let options ← storeValue options pname pval
        conninfoFrom rest options) := by
  rw [conninfoFrom]
  split
  · rename_i hblanks
    rw [if_pos hblanks]
  · rename_i c behind hblanks
    rw [hblanks, if_neg (List.cons_ne_nil c behind)]
    split
    · rename_i e hread
      rw [hread]
      rfl
    · rename_i pname pval rest hread
      rw [hread]
      rfl

/-- The characters of a text that libpq sees. -/
def cString (s : String) : List Char := s.toList.takeWhile (· ≠ '\x00')

/-- The explicit values; defaults fill in options that are left without one. -/
def conninfoParse (build : LibpqBuild) (conninfo : String) : Except ConninfoError ConnOptions :=
  conninfoFrom (cString conninfo) (conninfoInit build)

/-! ### Writing -/

/-- The parameters that a connection keeps. -/
structure ConnectionParameters where
  host : Option String
  port : Option String
  options : Option String
  dbName : Option String
  userName : Option String
  password : Option String
  sslMode : Option String
  service : Option String
  krbsrvName : Option String
deriving DecidableEq, Repr

namespace ConnectionParameters

/-- What `init` sets. -/
def init : ConnectionParameters where
  host := some "localhost"
  port := some "5432"
  options := none
  dbName := some "template1"
  userName := none
  password := none
  sslMode := none
  service := none
  krbsrvName := none

/-- The parameters under their keywords, in the order in which they are written. -/
def keyed (c : ConnectionParameters) : List (String × Option String) :=
  [("host", c.host), ("port", c.port), ("options", c.options), ("dbname", c.dbName),
    ("user", c.userName), ("password", c.password), ("sslmode", c.sslMode),
    ("service", c.service), ("krbsrvname", c.krbsrvName)]

/-- The parameters that are not `nil`. -/
def notNil (params : List (String × Option String)) : List (String × String) :=
  params.filterMap fun p => p.2.map fun value => (p.1, value)

def given (c : ConnectionParameters) : List (String × String) := notNil c.keyed

def makeConnectionString (c : ConnectionParameters) : String :=
  String.join (c.given.map fun p => " " ++ p.1 ++ "='" ++ p.2 ++ "' ")

end ConnectionParameters

/-! ### Reading what is written -/

/-- A value that stands between quotes for itself. -/
def Clean (value : String) : Prop :=
  '\'' ∉ value.toList ∧ '\\' ∉ value.toList ∧ '\x00' ∉ value.toList

instance (value : String) : Decidable (Clean value) := inferInstanceAs (Decidable (_ ∧ _))

/-- A name that ends with the equals sign behind it. -/
def NameChars (name : List Char) : Prop :=
  ∀ c ∈ name, c ≠ '=' ∧ isspace c = false ∧ c ≠ '\x00'

instance (name : List Char) : Decidable (NameChars name) :=
  List.decidableBAll _ name

section Reading

variable {name v rest : List Char} {options options' : ConnOptions}

theorem readName_append (h : NameChars name) (rest : List Char) :
    readName (name ++ '=' :: rest) = (name, '=' :: rest) := by
  induction name with
  | nil => rw [List.nil_append, readName, if_pos rfl]
  | cons c name ih =>
    obtain ⟨equals, blank, -⟩ := h c List.mem_cons_self
    have later : NameChars name := fun d hd => h d (List.mem_cons_of_mem c hd)
    rw [List.cons_append, readName, if_neg equals, if_neg (by rw [blank]; exact Bool.false_ne_true),
      ih later]

theorem readQuotedValue_append (quote : '\'' ∉ v) (backslash : '\\' ∉ v) (rest : List Char) :
    readQuotedValue (v ++ '\'' :: rest) = some (v, rest) := by
  induction v with
  | nil => rfl
  | cons c v ih =>
    obtain ⟨hquote, quote⟩ := not_or.mp (mt List.mem_cons.mpr quote)
    obtain ⟨hbackslash, backslash⟩ := not_or.mp (mt List.mem_cons.mpr backslash)
    rw [List.cons_append, readQuotedValue, ih quote backslash]
    · rfl
    · intro h _
      exact hbackslash h.symm
    · intro d cs h _
      exact hbackslash h.symm
    · exact fun h => hquote h.symm

/-- **A parameter** in quotes is read as it was written. -/
theorem readParameter_quoted (hname : NameChars name) (quote : '\'' ∉ v) (backslash : '\\' ∉ v)
    (rest : List Char) :
    readParameter (name ++ '=' :: '\'' :: (v ++ '\'' :: rest)) =
      .ok ((String.ofList name, String.ofList v), rest) := by
  have blanks : skipBlanks ('\'' :: (v ++ '\'' :: rest)) = '\'' :: (v ++ '\'' :: rest) := by
    rw [skipBlanks, List.dropWhile_cons_of_neg (by decide)]
  have value : readValue ('\'' :: (v ++ '\'' :: rest)) = .ok (v, rest) := by
    rw [readValue, if_pos (List.head?_cons ..), List.tail_cons,
      readQuotedValue_append quote backslash]
  rw [readParameter, readName_append hname]
  dsimp only
  rw [if_pos (List.head?_cons ..), List.tail_cons, blanks, value]
  rfl

theorem conninfoFrom_blank (cs : List Char) (options : ConnOptions) :
    conninfoFrom (' ' :: cs) options = conninfoFrom cs options := by
  have blanks : skipBlanks (' ' :: cs) = skipBlanks cs := List.dropWhile_cons_of_pos (by decide)
  rw [conninfoFrom_eq, conninfoFrom_eq, blanks]

theorem conninfoFrom_nil (options : ConnOptions) : conninfoFrom [] options = .ok options := by
  rw [conninfoFrom_eq]
  rfl

theorem conninfoFrom_parameter (hname : NameChars name) (some_name : name ≠ []) (quote : '\'' ∉ v)
    (backslash : '\\' ∉ v) (rest : List Char) (options : ConnOptions) :
    conninfoFrom (name ++ '=' :: '\'' :: (v ++ '\'' :: rest)) options = (do
      let options ← storeValue options (String.ofList name) (String.ofList v)
      conninfoFrom rest options) := by
  obtain ⟨c, name', rfl⟩ := List.exists_cons_of_ne_nil some_name
  have first : isspace c = false := (hname c List.mem_cons_self).2.1
  have blanks : skipBlanks ((c :: name') ++ '=' :: '\'' :: (v ++ '\'' :: rest)) =
      (c :: name') ++ '=' :: '\'' :: (v ++ '\'' :: rest) := by
    rw [skipBlanks, List.cons_append,
      List.dropWhile_cons_of_neg (by rw [first]; exact Bool.false_ne_true)]
  rw [conninfoFrom_eq, blanks, if_neg (List.append_ne_nil_of_left_ne_nil some_name _),
    readParameter_quoted hname quote backslash]
  rfl

/-- A known keyword gets the value, and the others keep theirs. -/
theorem storeValue_ok (value : String) {k : String} (known : k ∈ options.map Prod.fst) :
    ∃ options', storeValue options k value = .ok options' ∧
      options'.map Prod.fst = options.map Prod.fst ∧
      ∀ keyword, conninfoGetval options' keyword =
        if keyword = k then some value else conninfoGetval options keyword := by
  induction options with
  | nil => cases known
  | cons option options ih =>
    by_cases same : option.1 = k
    · refine ⟨(option.1, some value) :: options, by rw [storeValue, if_pos same], rfl, ?_⟩
      intro keyword
      rw [conninfoGetval, conninfoGetval, List.find?_cons, List.find?_cons]
      by_cases here : keyword = k
      · subst here
        simp [same]
      · have other : option.1 ≠ keyword := fun h => here (h.symm.trans same)
        simp [other, here]
    · rw [List.map_cons, List.mem_cons] at known
      obtain ⟨later, hstore, hkeys, hvalues⟩ := ih (known.resolve_left (Ne.symm same))
      refine ⟨option :: later, by rw [storeValue, if_neg same, hstore]; rfl, by
        rw [List.map_cons, List.map_cons, hkeys], fun keyword => ?_⟩
      have htail := hvalues keyword
      rw [conninfoGetval, conninfoGetval] at htail
      rw [conninfoGetval, conninfoGetval, List.find?_cons, List.find?_cons]
      by_cases here : option.1 = keyword
      · have other : keyword ≠ k := fun h => same (here.trans h)
        simp [here, other]
      · simp only [here, decide_false]
        exact htail

/-- A text of parameters in quotes, each behind a blank. -/
def quotedText (params : List (String × String)) : List Char :=
  params.flatMap fun p => ' ' :: (p.1.toList ++ '=' :: '\'' :: (p.2.toList ++ '\'' :: [' ']))

/-- **The run over a text.** Parameters of known keywords are stored one by one; of
those with one keyword the last one counts. -/
theorem conninfoFrom_quotedText (options : ConnOptions) {params : List (String × String)}
    (known : ∀ p ∈ params, p.1 ∈ options.map Prod.fst ∧ NameChars p.1.toList ∧ p.1 ≠ "")
    (clean : ∀ p ∈ params, '\'' ∉ p.2.toList ∧ '\\' ∉ p.2.toList) :
    ∃ options', conninfoFrom (quotedText params) options = .ok options' ∧
      ∀ keyword, conninfoGetval options' keyword =
        ((params.reverse.find? fun p => p.1 = keyword).map Prod.snd).or
          (conninfoGetval options keyword) := by
  induction params generalizing options with
  | nil => exact ⟨options, conninfoFrom_nil options, fun keyword => rfl⟩
  | cons p params ih =>
    obtain ⟨hknown, hname, some_name⟩ := known p List.mem_cons_self
    obtain ⟨quote, backslash⟩ := clean p List.mem_cons_self
    obtain ⟨stored, hstore, hkeys, hstored⟩ := storeValue_ok p.2 hknown
    obtain ⟨options', hrun, hvalues⟩ := ih stored
      (fun q hq => by rw [hkeys]; exact known q (List.mem_cons_of_mem p hq))
      (fun q hq => clean q (List.mem_cons_of_mem p hq))
    refine ⟨options', ?_, fun keyword => ?_⟩
    · rw [quotedText, List.flatMap_cons, List.cons_append, conninfoFrom_blank, List.append_assoc,
        List.cons_append, List.cons_append, List.append_assoc, List.cons_append,
        conninfoFrom_parameter hname (by simpa using some_name) quote backslash,
        String.ofList_toList, String.ofList_toList, hstore, ok_bind, List.singleton_append,
        conninfoFrom_blank]
      exact hrun
    · rw [hvalues, hstored, List.reverse_cons, List.find?_append]
      cases params.reverse.find? fun p => decide (p.1 = keyword) with
      | some q => rfl
      | none =>
        by_cases same : p.1 = keyword
        · simp [same]
        · simp [same, Ne.symm same]

end Reading

/-! ### Connection strings -/

section ConnectionStrings

variable {build : LibpqBuild} {c : ConnectionParameters}

theorem toList_parameterText (p : String × String) : (" " ++ p.1 ++ "='" ++ p.2 ++ "' ").toList =
    ' ' :: (p.1.toList ++ '=' :: '\'' :: (p.2.toList ++ '\'' :: [' '])) := by
  simp [String.toList_append]

theorem toList_makeConnectionString : c.makeConnectionString.toList = quotedText c.given := by
  rw [ConnectionParameters.makeConnectionString, quotedText]
  induction c.given with
  | nil => rfl
  | cons p params ih =>
    rw [List.map_cons, String.join_cons, String.toList_append, ih, toList_parameterText,
      List.flatMap_cons]

theorem mem_keyed_of_mem_given {p : String × String} (h : p ∈ c.given) :
    (p.1, some p.2) ∈ c.keyed := by
  obtain ⟨q, hq, hp⟩ := List.mem_filterMap.mp h
  obtain ⟨value, hvalue, rfl⟩ := Option.map_eq_some_iff.mp hp
  rw [← hvalue]
  exact hq

/-- Among entries with distinct keys, the last one given is the one there is. -/
theorem find?_notNil {params : List (String × Option String)}
    (nodup : (params.map Prod.fst).Nodup) (keyword : String) :
    ((ConnectionParameters.notNil params).reverse.find? fun p => p.1 = keyword).map Prod.snd =
      (params.find? fun p => p.1 = keyword).bind Prod.snd := by
  induction params with
  | nil => rfl
  | cons p params ih =>
    obtain ⟨key, value⟩ := p
    obtain ⟨new, nodup⟩ := List.nodup_cons.mp nodup
    have later := ih nodup
    rw [List.find?_cons]
    by_cases same : key = keyword
    · subst same
      -- the keyword is not among the entries behind
      have absent : (params.find? fun p => decide (p.1 = key)) = none := by
        rw [List.find?_eq_none]
        intro q hq hkey
        exact new (List.mem_map.mpr ⟨q, hq, of_decide_eq_true hkey⟩)
      rw [absent, Option.bind_none, Option.map_eq_none_iff] at later
      rw [decide_eq_true rfl]
      cases value with
      | none =>
        show ((ConnectionParameters.notNil params).reverse.find? _).map Prod.snd = _
        rw [later]
        rfl
      | some value =>
        show (((key, value) :: ConnectionParameters.notNil params).reverse.find? _).map Prod.snd = _
        rw [List.reverse_cons, List.find?_append, later]
        simp
    · rw [decide_eq_false same, ← later]
      cases value with
      | none => rfl
      | some value =>
        show (((key, value) :: ConnectionParameters.notNil params).reverse.find? _).map Prod.snd = _
        rw [List.reverse_cons, List.find?_append]
        simp [same]

theorem keywords_nameChars {keyword : String} (h : keyword ∈ PQconninfoOptions build) :
    NameChars keyword.toList ∧ keyword ≠ "" := by
  have all : ∀ keyword ∈ PQconninfoOptions ⟨true, true, true⟩,
      NameChars keyword.toList ∧ keyword ≠ "" := by
    decide +kernel
  have optional : ∀ (b : Bool) (keywords : List String),
      keyword ∈ (if b then keywords else []) → keyword ∈ keywords := by
    intro b keywords mem
    cases b with
    | false => cases mem
    | true => exact mem
  apply all
  simp only [PQconninfoOptions, List.mem_append] at h ⊢
  rcases h with ((((fixed | ssl) | fixed) | kerberos) | gss) | fixed
  · simp only [fixed, true_or]
  · simp only [if_true, optional _ _ ssl, true_or, or_true]
  · simp only [fixed, true_or, or_true]
  · simp only [if_true, optional _ _ kerberos, true_or, or_true]
  · simp only [if_true, optional _ _ gss, true_or, or_true]
  · simp only [fixed, or_true]

/-- The keywords of a connection are in the table, the last one if libpq has Kerberos. -/
theorem keyword_known (supported : c.krbsrvName ≠ none → build.kerberos = true)
    {p : String × String} (h : p ∈ c.given) : p.1 ∈ PQconninfoOptions build := by
  have keyed := mem_keyed_of_mem_given h
  simp only [ConnectionParameters.keyed, List.mem_cons, Prod.mk.injEq, List.not_mem_nil,
    or_false] at keyed
  rcases keyed with ⟨key, -⟩ | ⟨key, -⟩ | ⟨key, -⟩ | ⟨key, -⟩ | ⟨key, -⟩ | ⟨key, -⟩ | ⟨key, -⟩ |
    ⟨key, -⟩ | ⟨key, given⟩
  all_goals rw [key]
  · simp [PQconninfoOptions]
  · simp [PQconninfoOptions]
  · simp [PQconninfoOptions]
  · simp [PQconninfoOptions]
  · simp [PQconninfoOptions]
  · simp [PQconninfoOptions]
  · simp [PQconninfoOptions]
  · simp [PQconninfoOptions]
  · have kerberos := supported (by rw [← given]; exact Option.some_ne_none _)
    simp [PQconninfoOptions, kerberos]

theorem conninfoGetval_init (keyword : String) :
    conninfoGetval (conninfoInit build) keyword = none := by
  rw [conninfoGetval, conninfoInit, List.find?_map]
  cases (PQconninfoOptions build).find? _ <;> rfl

theorem keys_conninfoInit : (conninfoInit build).map Prod.fst = PQconninfoOptions build := by
  rw [conninfoInit, List.map_map]
  exact List.map_id _

/-- What libpq sees of a text without NUL is the text. -/
theorem cString_eq {s : String} (h : '\x00' ∉ s.toList) : cString s = s.toList := by
  rw [cString, List.takeWhile_eq_self_iff]
  intro c hc
  exact decide_eq_true fun (nul : c = '\x00') => h (nul ▸ hc)

theorem not_mem_quotedText {params : List (String × String)}
    (known : ∀ p ∈ params, p.1 ∈ PQconninfoOptions build)
    (clean : ∀ p ∈ params, '\x00' ∉ p.2.toList) : '\x00' ∉ quotedText params := by
  intro nul
  obtain ⟨p, hp, nul⟩ := List.mem_flatMap.mp nul
  have name : '\x00' ∉ p.1.toList := fun h =>
    ((keywords_nameChars (known p hp)).1 _ h).2.2 rfl
  have value := clean p hp
  simp only [List.mem_cons, List.mem_append, List.not_mem_nil, or_false] at nul
  rcases nul with blank | nul | equals | quote | nul | quote | blank
  · exact absurd blank (by decide)
  · exact name nul
  · exact absurd equals (by decide)
  · exact absurd quote (by decide)
  · exact value nul
  · exact absurd quote (by decide)
  · exact absurd blank (by decide)

/-- Parameters in quotes are read one by one. -/
theorem conninfoParse_quoted {s : String} {params : List (String × String)}
    (text : s.toList = quotedText params) (known : ∀ p ∈ params, p.1 ∈ PQconninfoOptions build)
    (clean : ∀ p ∈ params, Clean p.2) :
    ∃ options, conninfoParse build s = .ok options ∧ ∀ keyword,
      conninfoGetval options keyword = (params.reverse.find? fun p => p.1 = keyword).map Prod.snd := by
  have nul := not_mem_quotedText known fun p hp => (clean p hp).2.2
  obtain ⟨options, hrun, hvalues⟩ := conninfoFrom_quotedText (conninfoInit build)
    (fun p hp => by
      rw [keys_conninfoInit]
      exact ⟨known p hp, keywords_nameChars (known p hp)⟩)
    fun p hp => ⟨(clean p hp).1, (clean p hp).2.1⟩
  refine ⟨options, ?_, fun keyword => ?_⟩
  · rw [conninfoParse, cString_eq (by rw [text]; exact nul), text]
    exact hrun
  · rw [hvalues, conninfoGetval_init, Option.or_none]

/-- **Main result.** libpq reads each parameter back under its keyword, and nothing else,
if no parameter has a quote, a backslash or a NUL in it. -/
theorem conninfoParse_makeConnectionString (build : LibpqBuild) (c : ConnectionParameters)
    (supported : c.krbsrvName ≠ none → build.kerberos = true)
    (clean : ∀ p ∈ c.given, Clean p.2) :
    ∃ options, conninfoParse build c.makeConnectionString = .ok options ∧
      ∀ keyword, conninfoGetval options keyword =
        (c.keyed.find? fun p => p.1 = keyword).bind Prod.snd := by
  obtain ⟨options, hparse, hvalues⟩ := conninfoParse_quoted toList_makeConnectionString
    (fun p hp => keyword_known supported hp) clean
  refine ⟨options, hparse, fun keyword => ?_⟩
  rw [hvalues]
  have nodup : (c.keyed.map Prod.fst).Nodup := by
    show ["host", "port", "options", "dbname", "user", "password", "sslmode", "service",
      "krbsrvname"].Nodup
    decide
  exact find?_notNil nodup keyword

/-- The parameters of the app's database. -/
def posParameters : ConnectionParameters := { ConnectionParameters.init with
  host := some "192.168.1.14"
  dbName := some "POS"
  userName := some "postgres"
  password := some "" }

theorem conninfoParse_posParameters :
    ∃ options, conninfoParse ⟨true, false, false⟩ posParameters.makeConnectionString = .ok options ∧
      ∀ keyword, conninfoGetval options keyword =
        (posParameters.keyed.find? fun p => p.1 = keyword).bind Prod.snd :=
  conninfoParse_makeConnectionString _ _ (fun given => absurd rfl given) (by decide +kernel)

/-- A parameter that ends the quotes and goes on with one of its own is two parameters. -/
theorem quotedText_injected (before after : List (String × String)) (name v keyword injected : String) :
    quotedText (before ++ (name, v ++ "'  " ++ keyword ++ "='" ++ injected) :: after) =
      quotedText (before ++ (name, v) :: (keyword, injected) :: after) := by
  simp [quotedText, String.toList_append]

/-- **Main result.** A parameter with a quote can set any option of libpq, as long as no
parameter behind it is about that option. -/
theorem quote_sets_any (build : LibpqBuild) (c : ConnectionParameters)
    (supported : c.krbsrvName ≠ none → build.kerberos = true)
    (before after : List (String × String)) (name v keyword injected : String)
    (given : c.given = before ++ (name, v ++ "'  " ++ keyword ++ "='" ++ injected) :: after)
    (known : keyword ∈ PQconninfoOptions build) (last : ∀ p ∈ after, p.1 ≠ keyword)
    (clean : ∀ p ∈ before ++ (name, v) :: (keyword, injected) :: after, Clean p.2) :
    ∃ options, conninfoParse build c.makeConnectionString = .ok options ∧
      conninfoGetval options keyword = some injected := by
  have text : c.makeConnectionString.toList =
      quotedText (before ++ (name, v) :: (keyword, injected) :: after) := by
    rw [toList_makeConnectionString, given, quotedText_injected]
  have keywords : ∀ p ∈ before ++ (name, v) :: (keyword, injected) :: after,
      p.1 ∈ PQconninfoOptions build := by
    intro p hp
    have names := fun q (hq : q ∈ c.given) => keyword_known supported hq
    rw [given] at names
    rcases List.mem_append.mp hp with hp | hp
    · exact names p (List.mem_append_left _ hp)
    · rcases List.mem_cons.mp hp with rfl | hp
      · exact names (name, v ++ "'  " ++ keyword ++ "='" ++ injected)
          (List.mem_append_right _ List.mem_cons_self)
      · rcases List.mem_cons.mp hp with rfl | hp
        · exact known
        · exact names p (List.mem_append_right _ (List.mem_cons_of_mem _ hp))
  obtain ⟨options, hparse, hvalues⟩ := conninfoParse_quoted text keywords clean
  refine ⟨options, hparse, ?_⟩
  have absent : (after.reverse.find? fun p => decide (p.1 = keyword)) = none := by
    rw [List.find?_eq_none]
    intro p hp hkey
    exact last p (List.mem_reverse.mp hp) (of_decide_eq_true hkey)
  rw [hvalues, List.reverse_append, List.reverse_cons, List.reverse_cons, List.find?_append,
    List.find?_append, List.find?_append, absent]
  simp

/-- A password leads to another server. -/
theorem quote_sets_host :
    ∃ options, conninfoParse ⟨true, false, false⟩
        { posParameters with password := some "x'  host='10.0.0.1" }.makeConnectionString =
          .ok options ∧
      conninfoGetval options "host" = some "10.0.0.1" :=
  quote_sets_any _ _ (fun given => absurd rfl given)
    [("host", "192.168.1.14"), ("port", "5432"), ("dbname", "POS"), ("user", "postgres")] []
    "password" "x" "host" "10.0.0.1"
    (by decide +kernel) (by decide) (by decide) (by decide +kernel)

end ConnectionStrings

end PointIPad
