import Xrtc.Go.Framework
import Xrtc.Proof.ConfigValue
import Xrtc.Proof.Selector

/-!
# What a configuration file starts
-/

namespace Xrtc.Proof.Framework
open Go Lib Lib.Strings Lib.OrderedMap Lib.Printf ConfigFile ConfigValue

abbrev documentOf (file : File) : Document := Document.apply [] (.read file.content file.fails)

/-! ## The values -/

theorem bind_ok {α β : Type} {x : Starting α} {f : α → Starting β} {b : β} :
    (x >>= f).run = some (.ok b) ↔ ∃ a, x.run = some (.ok a) ∧ (f a).run = some (.ok b) := by
  rw [ExceptT.run_bind]
  cases ran : x.run with
  | none => simp
  | some result => cases result <;> simp

/-- References are not needed. -/
def Unmarked (doc : Document) : Prop := ∀ part ∈ doc, ∀ entry ∈ part.2, 0x25 ∉ entry.2
  deriving Decidable

/-- The name of a section without a section above it. -/
def Topmost (name : Str) : Prop := name ≠ [] ∧ lastIndex (text ".") name = none
  deriving Decidable

variable {c : ConfigFile} {doc : Document}

theorem Unmarked.value (unmarked : Unmarked doc) {name key value : Str} (stored : doc.value name key = some value) :
    0x25 ∉ value := by
  rw [Document.value, Document.entries] at stored
  cases part : get doc (orDefault name) with
  | none => rw [part] at stored; cases stored
  | some entries =>
      rw [part] at stored
      exact unmarked _ (mem_of_get part) _ (mem_of_get stored)

theorem expand_unmarked {value : Str} (unmarked : 0x25 ∉ value) (resolve : Str → Option Str) (n : Nat) :
    varPattern.expand resolve n value = some value := by
  have none : varPattern.find value = none := by
    have whole := varPattern.find_text unmarked []
    rwa [List.append_nil] at whole
  cases n with
  | zero => rfl
  | succ n => rw [Template.Marks.expand, none]

theorem getValue_unmarked (shown : Represents c doc) (unmarked : Unmarked doc) {fuel : Nat} (positive : 1 ≤ fuel)
    {name : Str} (topmost : Topmost name) (key value : Str) :
    c.getValue fuel name key = some (.ok value) ↔ doc.value name key = some value := by
  obtain ⟨fuel, rfl⟩ := Nat.exists_eq_add_of_le' positive
  have own : orDefault name = name := if_neg topmost.1
  have same := shown.value_eq name key
  rw [own] at same
  rw [← same]
  cases there : c.data name with
  | none =>
      rw [ConfigFile.getValue]
      simp [own, there]
  | some keys =>
      rw [there, Option.getD_some] at same
      cases found : keys key with
      | none =>
          rw [ConfigFile.getValue]
          simp [own, there, found, topmost.2]
      | some old =>
          have plain : 0x25 ∉ old := unmarked.value (same.symm.trans found)
          rw [getValue_present (own.symm ▸ there) found, expand_unmarked plain]
          simp [found]

section

variable {fuel : Nat} (shown : Represents c doc) (unmarked : Unmarked doc) (positive : 1 ≤ fuel) {name : String}
  (topmost : Topmost (text name)) (key : String)
include shown unmarked positive topmost

theorem valueOf_iff (value : Str) :
    (c.valueOf fuel name key).run = some (.ok value) ↔ doc.value (text name) (text key) = some value := by
  rw [← getValue_unmarked shown unmarked positive topmost]
  change (c.getValue fuel (text name) (text key)).map (Except.mapError InitError.get) = some (.ok value) ↔ _
  cases c.getValue fuel (text name) (text key) with
  | none => simp
  | some result => cases result <;> simp [Except.mapError]

theorem bool_iff (b : Bool) : (c.bool fuel name key).run = some (.ok b) ↔
    ∃ value, doc.value (text name) (text key) = some value ∧ parseBool value = .ok b := by
  rw [ConfigFile.bool, bind_ok]
  refine exists_congr fun value => and_congr (valueOf_iff shown unmarked positive topmost key value) ?_
  change some ((parseBool value).mapError _) = _ ↔ _
  cases parseBool value <;> simp [Except.mapError]

theorem int_iff (n : Int) : (c.int fuel name key).run = some (.ok n) ↔
    ∃ value, doc.value (text name) (text key) = some value ∧ atoi value = .ok n := by
  rw [ConfigFile.int, bind_ok]
  refine exists_congr fun value => and_congr (valueOf_iff shown unmarked positive topmost key value) ?_
  change some ((atoi value).mapError _) = _ ↔ _
  cases atoi value <;> simp [Except.mapError]

end

structure Configures (doc : Document) (conf : FrameworkConf) : Prop where
  logDir : doc.value (text "log") (text "logDir") = some conf.logDir
  logFile : doc.value (text "log") (text "logFile") = some conf.logFile
  logLevel : doc.value (text "log") (text "logLevel") = some conf.logLevel
  logToStderr : ∃ value, doc.value (text "log") (text "logToStderr") = some value ∧
    parseBool value = .ok conf.logToStderr
  httpPort : ∃ value, doc.value (text "http") (text "port") = some value ∧ atoi value = .ok conf.httpPort
  httpStaticDir : doc.value (text "http") (text "staticDir") = some conf.httpStaticDir
  httpStaticPrefix : doc.value (text "http") (text "staticPrefix") = some conf.httpStaticPrefix
  httpsPort : ∃ value, doc.value (text "https") (text "port") = some value ∧ atoi value = .ok conf.httpsPort
  httpsCert : doc.value (text "https") (text "cert") = some conf.httpsCert
  httpsKey : doc.value (text "https") (text "key") = some conf.httpsKey

theorem readConf_iff (shown : Represents c doc) (unmarked : Unmarked doc) {fuel : Nat} (positive : 1 ≤ fuel)
    (conf : FrameworkConf) : (readConf c fuel).run = some (.ok conf) ↔ Configures doc conf := by
  have log : Topmost (text "log") := by decide +kernel
  have http : Topmost (text "http") := by decide +kernel
  have https : Topmost (text "https") := by decide +kernel
  simp only [readConf, bind_ok, valueOf_iff shown unmarked positive log, valueOf_iff shown unmarked positive http,
    valueOf_iff shown unmarked positive https, bool_iff shown unmarked positive log,
    int_iff shown unmarked positive http, int_iff shown unmarked positive https]
  constructor
  · rintro ⟨_, h1, _, h2, _, h3, _, h4, _, h5, _, h6, _, h7, _, h8, _, h9, _, h10, same⟩
    cases same
    exact ⟨h1, h2, h3, h4, h5, h6, h7, h8, h9, h10⟩
  · intro ⟨h1, h2, h3, h4, h5, h6, h7, h8, h9, h10⟩
    exact ⟨_, h1, _, h2, _, h3, _, h4, _, h5, _, h6, _, h7, _, h8, _, h9, _, h10, rfl⟩

/-! ## The clients -/

section

variable {A : Type} (resolve : Str → String → Except String A)

def clientsOf (doc : Document) : Clients A := fun name =>
  if (text "xrpc.").isPrefixOf name then
    (doc.value name (text "server")).map (sectionClient resolve name (doc.value name))
  else none

/-- Every section of a service has servers. -/
def Served (doc : Document) : Prop :=
  ∀ part ∈ doc, (text "xrpc.").isPrefixOf part.1 = true → (doc.value part.1 (text "server")).isSome
  deriving Decidable

theorem sectionClient_congr {first second : Str → Option Str} (same : ∀ key ≠ text " ", first key = second key)
    (name values : Str) : sectionClient resolve name first values = sectionClient resolve name second values := by
  have timeouts (key : String) (proper : text key ≠ text " ") (unset : Duration) :
      timeout first key unset = timeout second key unset := by
    rw [timeout, timeout, same _ proper]
  rw [sectionClient, sectionClient]
  simp only [timeouts "connectTimeout" (by decide +kernel), timeouts "readTimeout" (by decide +kernel),
    timeouts "writeTimeout" (by decide +kernel)]

theorem getSection_part (shown : Represents c doc) {part : Str × Entries} (member : part ∈ doc) :
    ∃ keys, c.getSection part.1 = .ok keys ∧ ∀ key ≠ text " ", keys key = doc.value part.1 key := by
  obtain ⟨own, -, -, keys, stored, -⟩ := shown.part member
  refine ⟨Function.update keys (text " ") none, ?_, fun key proper => ?_⟩
  · rw [ConfigFile.getSection, own]
    simp only [stored]
  · have same := shown.value_eq part.1 key
    rw [own, stored, Option.getD_some] at same
    rw [Function.update_of_ne proper, same]

def withSections (doc : Document) : List Str → Clients A → Clients A
  | [], clients => clients
  | name :: rest, clients =>
      match clientsOf resolve doc name with
      | none => withSections doc rest clients
      | some client => withSections doc rest (Function.update clients name (some client))

theorem withSections_none {name : Str} {rest : List Str} (none : clientsOf resolve doc name = none)
    (clients : Clients A) :
    withSections resolve doc (name :: rest) clients = withSections resolve doc rest clients := by
  rw [withSections, none]

theorem withSections_some {name : Str} {client : Client A} (made : clientsOf resolve doc name = some client)
    (rest : List Str) (clients : Clients A) :
    withSections resolve doc (name :: rest) clients =
      withSections resolve doc rest (Function.update clients name (some client)) := by
  rw [withSections, made]

theorem withSections_apply (names : List Str) (clients : Clients A) (name : Str) :
    (name ∈ names → withSections resolve doc names clients name = (clientsOf resolve doc name).or (clients name)) ∧
      (name ∉ names → withSections resolve doc names clients name = clients name) := by
  induction names generalizing clients with
  | nil => exact ⟨fun member => absurd member List.not_mem_nil, fun _ => rfl⟩
  | cons first rest ih =>
      cases made : clientsOf resolve doc first with
      | none =>
          rw [withSections_none resolve made]
          refine ⟨fun member => ?_, fun absent => (ih clients).2 fun later => absent (List.mem_cons_of_mem _ later)⟩
          by_cases later : name ∈ rest
          · exact (ih clients).1 later
          · obtain rfl : name = first := (List.mem_cons.mp member).resolve_right later
            rw [(ih clients).2 later, made]
            rfl
      | some client =>
          rw [withSections_some resolve made]
          refine ⟨fun member => ?_, fun absent => ?_⟩
          · by_cases here : name = first
            · subst here
              by_cases later : name ∈ rest
              · rw [(ih _).1 later, made]
                rfl
              · rw [(ih _).2 later, Function.update_self, made]
                rfl
            · rw [(ih _).1 ((List.mem_cons.mp member).resolve_left here), Function.update_of_ne here]
          · rw [List.mem_cons, not_or] at absent
            rw [(ih _).2 absent.2, Function.update_of_ne absent.1]

theorem loadSections_iff (shown : Represents c doc) (parts : Document) (inside : parts ⊆ doc)
    (clients last : Clients A) :
    loadSections resolve c (parts.map Prod.fst) clients = (last, none) ↔
      (∀ part ∈ parts, (text "xrpc.").isPrefixOf part.1 = true → (doc.value part.1 (text "server")).isSome) ∧
      last = withSections resolve doc (parts.map Prod.fst) clients := by
  induction parts generalizing clients with
  | nil =>
      constructor
      · intro same
        cases same
        exact ⟨fun part member => absurd member List.not_mem_nil, rfl⟩
      · rintro ⟨-, rfl⟩
        rfl
  | cons part rest ih =>
      have later := ih fun other member => inside (List.mem_cons_of_mem _ member)
      rw [List.map_cons, loadSections, List.forall_mem_cons]
      split
      · next service =>
          obtain ⟨keys, found, values⟩ := getSection_part shown (inside (List.mem_cons_self ..))
          have server := values (text "server") (by decide +kernel)
          rw [found]
          simp only [service, forall_const]
          cases listed : keys (text "server") with
          | none =>
              rw [← server, listed]
              simp
          | some servers =>
              rw [listed] at server
              have made : clientsOf resolve doc part.1 = some (sectionClient resolve part.1 keys servers) := by
                rw [clientsOf, if_pos service, ← server, Option.map_some,
                  sectionClient_congr resolve values part.1 servers]
              rw [← server, withSections_some resolve made]
              simp only [later, Option.isSome_some, true_and]
      · next other =>
          rw [withSections_none resolve (if_neg other), later]
          exact and_congr_left fun _ => (and_iff_right fun service => absurd service other).symm

theorem loadXrpc_iff (shown : Represents c doc) (clients : Clients A) :
    loadXrpc resolve c (fun _ => none) = (clients, none) ↔ Served doc ∧ clients = clientsOf resolve doc := by
  have all : withSections resolve doc (doc.map Prod.fst) (fun _ => none) = clientsOf resolve doc := by
    funext name
    by_cases there : name ∈ doc.map Prod.fst
    · rw [(withSections_apply resolve _ _ name).1 there, Option.or_none]
    · rw [(withSections_apply resolve _ _ name).2 there, clientsOf]
      split
      · next service =>
          have filled : name ≠ [] := by
            rintro rfl
            cases service
          rw [Document.value, entries_nil filled there]
          rfl
      · rfl
  rw [loadXrpc, ConfigFile.getSectionList, ← shown.sections.names,
    loadSections_iff resolve shown doc (List.Subset.refl doc), all]
  rfl

/-! ## Starting -/

theorem loadConfigFile_iff {disk : Disk} {confFile : Str} {file : File} (opened : disk confFile = .ok file)
    (c : ConfigFile) : loadConfigFile disk confFile [] = .ok c ↔
      (newConfigFile [confFile]).read file.content file.fails = (c, none) := by
  rw [loadConfigFile, loadFiles, ConfigFile.loadFile, opened]
  simp only
  cases (newConfigFile [confFile]).read file.content file.fails with
  | mk read err => cases err <;> simp [loadFiles]

variable {disk : Disk} {confFile : Str} {file : File} {fuel : Nat} {conf : FrameworkConf} {clients : Clients A}

omit A in
theorem loadConf_iff (opened : disk confFile = .ok file) (c : ConfigFile) :
    (loadConf disk fuel confFile).run = some (.ok (c, conf)) ↔
      (newConfigFile [confFile]).read file.content file.fails = (c, none) ∧
        (readConf c fuel).run = some (.ok conf) := by
  have loaded (c : ConfigFile) : (ExceptT.mk (some ((loadConfigFile disk confFile []).mapError InitError.load)) :
      Starting ConfigFile).run = some (.ok c) ↔
        (newConfigFile [confFile]).read file.content file.fails = (c, none) := by
    rw [← loadConfigFile_iff opened]
    change some ((loadConfigFile disk confFile []).mapError _) = _ ↔ _
    cases loadConfigFile disk confFile [] <;> simp [Except.mapError]
  simp only [loadConf, bind_ok, loaded]
  constructor
  · rintro ⟨c', read, conf', values, same⟩
    cases same
    exact ⟨read, values⟩
  · rintro ⟨read, values⟩
    exact ⟨c, read, conf, values, rfl⟩

theorem started_iff (opened : disk confFile = .ok file) :
    (init resolve disk fuel confFile).run = some (.ok (conf, clients)) ↔
      ∃ c, (newConfigFile [confFile]).read file.content file.fails = (c, none) ∧
        (readConf c fuel).run = some (.ok conf) ∧ loadXrpc resolve c (fun _ => none) = (clients, none) := by
  rw [init, bind_ok]
  constructor
  · rintro ⟨⟨c, conf'⟩, loaded, made⟩
    obtain ⟨read, values⟩ := (loadConf_iff opened c).mp loaded
    cases xrpc : loadXrpc resolve c fun _ => none with
    | mk all err =>
        simp only [xrpc] at made
        cases err with
        | none =>
            cases made
            exact ⟨c, read, values, xrpc⟩
        | some err => cases made
  · rintro ⟨c, read, values, made⟩
    refine ⟨(c, conf), (loadConf_iff opened c).mpr ⟨read, values⟩, ?_⟩
    simp only [made]
    rfl

/-- `Init` succeeds exactly on the files that can be read, have the ten values of the framework, numbers where
it takes them for numbers, and a list of servers in every section of a service. The result is what the document
of the file has: a service has a client exactly if it has a section. -/
theorem init_iff (opened : disk confFile = .ok file) (unmarked : Unmarked (documentOf file)) (positive : 1 ≤ fuel) :
    (init resolve disk fuel confFile).run = some (.ok (conf, clients)) ↔
      ((newConfigFile [confFile]).read file.content file.fails).2 = none ∧ Configures (documentOf file) conf ∧
        Served (documentOf file) ∧ clients = clientsOf resolve (documentOf file) := by
  have shown := read_represents [confFile] file.content file.fails
  rw [started_iff resolve opened, ← readConf_iff shown unmarked positive, ← loadXrpc_iff resolve shown]
  constructor
  · rintro ⟨c, read, values, made⟩
    rw [read]
    exact ⟨rfl, values, made⟩
  · rintro ⟨read, values, made⟩
    exact ⟨_, Prod.ext rfl read, values, made⟩

end

/-- The file of the repository, without the comments that are not in ASCII. -/
def shipped : File where
  content := unlines 0x0a <| [
    "[log]", "logDir: ./log", "logFile: signaling", "# DEBUG INFO WARNING ERROR FATAL", "logLevel: DEBUG",
    "logToStderr: true", "",
    "[http]", "port: 8080", "staticDir: ./static", "staticPrefix: /static/", "",
    "[https]", "port: 8081", "cert: ./conf/fullchain.pem", "key: ./conf/privkey.pem", "",
    "[xrpc.xrtc]", "connectTimeout: 100", "readTimeout: 500", "writeTimeout: 500",
    "server: 127.0.0.1:9000,127.0.0.1:9000"].map text

def shippedDisk : Disk := fun _ => .ok shipped

def shippedDoc : Document :=
  let entries (list : List (String × String)) : Entries := list.map fun entry => (text entry.1, text entry.2)
  [(text "log", entries [(" ", " "), ("logDir", "./log"), ("logFile", "signaling"), ("logLevel", "DEBUG"),
      ("logToStderr", "true")]),
    (text "http", entries [(" ", " "), ("port", "8080"), ("staticDir", "./static"), ("staticPrefix", "/static/")]),
    (text "https", entries [(" ", " "), ("port", "8081"), ("cert", "./conf/fullchain.pem"),
      ("key", "./conf/privkey.pem")]),
    (text "xrpc.xrtc", entries [(" ", " "), ("connectTimeout", "100"), ("readTimeout", "500"),
      ("writeTimeout", "500"), ("server", "127.0.0.1:9000,127.0.0.1:9000")])]

theorem shipped_document : documentOf shipped = shippedDoc := by decide +kernel

def shippedConf : FrameworkConf :=
  ⟨text "./log", text "signaling", text "DEBUG", true, 8080, text "./static", text "/static/", 8081,
    text "./conf/fullchain.pem", text "./conf/privkey.pem"⟩

theorem shipped_configures : Configures (documentOf shipped) shippedConf := by
  rw [shipped_document]
  refine ⟨?_, ?_, ?_, ⟨text "true", ?_, ?_⟩, ⟨text "8080", ?_, ?_⟩, ?_, ?_, ⟨text "8081", ?_, ?_⟩, ?_, ?_⟩ <;>
    decide +kernel

theorem shipped_read : ((newConfigFile [[]]).read shipped.content shipped.fails).2 = none := by decide +kernel

theorem shipped_served : Served (documentOf shipped) := by
  rw [shipped_document]
  decide +kernel

theorem shipped_unmarked : Unmarked (documentOf shipped) := by
  rw [shipped_document]
  decide +kernel

theorem init_iff_shipped :
    (init (fun _ => Selector.literal) shippedDisk 1 []).run =
      some (.ok (shippedConf, clientsOf (fun _ => Selector.literal) (documentOf shipped))) :=
  (init_iff _ rfl shipped_unmarked le_rfl).mpr ⟨shipped_read, shipped_configures, shipped_served, rfl⟩

/-! ## Picking -/

section

variable {A : Type} (resolve : Str → String → Except String A) {disk : Disk} {confFile : Str} {file : File}
  {fuel : Nat}
  {conf : FrameworkConf} {clients : Clients A}

/-- A selector without addresses, and calls that got none. -/
structure Bare (s : Selecting A) : Prop where
  list : s.rrs.addrs = []
  results : ∀ (i : Nat) call list out, s.calls[i]? = some call → call.result = some (list, out) →
    out = .err "no server to pick"

theorem Bare.kept {s s' : Selecting A} {l : SelectorLabel A} (bare : Bare s) (only : Selector.PicksOnly s l)
    (taken : s.step l = some s') : Bare s' := by
  cases l with
  | setServer resolve servers => cases only
  | lock =>
      obtain rfl := Selector.lock_inv taken
      refine ⟨bare.list, fun i call list out found returned => ?_⟩
      rcases getElem?_concat_cases found with old | rfl
      · exact bare.results i call list out old returned
      · cases returned
  | rlock j =>
      obtain ⟨index, -, rfl⟩ := Selector.rlock_inv taken
      refine ⟨bare.list, fun i call list out found returned => ?_⟩
      rcases getElem?_set_cases found with ⟨rfl, rfl⟩ | old
      · cases returned
        rw [RoundRobinSelector.pickRLocked, bare.list]
        rfl
      · exact bare.results i call list out old returned

theorem newClient_bare {resolve : String → Except String A} {servers : List String} {server : String} {err : String}
    (listed : server ∈ servers) (failed : resolve server = .error err) :
    Bare ⟨(newClient resolve servers).selector, []⟩ := by
  refine ⟨?_, fun i call list out found => by cases found⟩
  have some_server : servers.length ≠ 0 := List.length_pos_iff_ne_nil.mpr (List.ne_nil_of_mem listed) |>.ne'
  rw [newClient, Selector.setServer_eq, if_neg some_server]
  cases resolved : servers.mapM resolve with
  | error err => rfl
  | ok addrs =>
      obtain ⟨i, inside, here⟩ := List.getElem_of_mem listed
      have size := Selector.mapM_ok_length resolved
      obtain ⟨other, at_i, answered⟩ := Selector.mapM_getElem? resolved
        (List.getElem?_eq_getElem (by omega : i < addrs.length))
      rw [List.getElem?_eq_getElem inside, here] at at_i
      cases at_i
      rw [failed] at answered
      cases answered

theorem service_isSome (served : Served doc) {name : Str} (service : (text "xrpc.").isPrefixOf name = true) :
    (clientsOf resolve doc name).isSome = (get doc name).isSome := by
  have filled : name ≠ [] := by
    rintro rfl
    cases service
  rw [clientsOf, if_pos service, Option.isSome_map]
  by_cases there : name ∈ doc.map Prod.fst
  · rw [(get_isSome doc name).mpr there]
    exact served _ (entries_mem filled there) service
  · rw [get_eq_none there, Document.value, entries_nil filled there]
    rfl

/-- After every successful `Init` a service has a client exactly if the file has a section for it. The timeouts
are those of the section, in milliseconds, or the defaults. Call `i` of `PickServer`, in every interleaving,
returns the address of the server at place `i`, modulo their number, in the list that the file gives; and if one
name of that list cannot be resolved, every call fails. -/
theorem configured_picks (opened : disk confFile = .ok file)
    (started : (init resolve disk fuel confFile).run = some (.ok (conf, clients))) (serviceName : Str) :
    let name := text "xrpc." ++ serviceName
    let keys := (documentOf file).value name
    (serviceClient clients serviceName).isSome = (get (documentOf file) name).isSome ∧
    ∀ client, serviceClient clients serviceName = some client →
      client.connectTimeout = Client.configured (timeout keys "connectTimeout" 0) defaultConnectTimeout ∧
      client.readTimeout = Client.configured (timeout keys "readTimeout" 0) defaultReadTimeout ∧
      client.writeTimeout = Client.configured (timeout keys "writeTimeout" 0) defaultWriteTimeout ∧
      ∃ values, keys (text "server") = some values ∧
        ∀ s, Reachable Selecting.step Selector.PicksOnly ⟨client.selector, []⟩ s →
          ∀ (i : Nat) call list out, s.calls[i]? = some call → call.result = some (list, out) →
            ((∀ server ∈ serverList values, ∃ a, resolve name server = .ok a) →
              ∃ server a, (serverList values)[i % (serverList values).length]? = some server ∧
                resolve name server = .ok a ∧ out = .addr a) ∧
            ((∃ server ∈ serverList values, ∃ err, resolve name server = .error err) →
              out = .err "no server to pick") := by
  intro name keys
  have service : (text "xrpc.").isPrefixOf name = true := List.isPrefixOf_iff_prefix.mpr (List.prefix_append ..)
  obtain ⟨c, read, -, made⟩ := (started_iff resolve opened).mp started
  have shown := read_represents [confFile] file.content file.fails
  rw [read] at shown
  obtain ⟨served, rfl⟩ := (loadXrpc_iff resolve shown clients).mp made
  refine ⟨service_isSome resolve served service, fun client found => ?_⟩
  rw [serviceClient, clientsOf, if_pos service] at found
  obtain ⟨values, listed, rfl⟩ := Option.map_eq_some_iff.mp found
  refine ⟨rfl, rfl, rfl, values, listed, fun s reachable i call list out here returned => ⟨fun resolvable => ?_, ?_⟩⟩
  · have some_server : 1 ≤ (serverList values).length := by
      rw [serverList, List.length_map]
      exact List.length_pos_iff_ne_nil.mpr (List.splitOn_ne_nil _ _)
    obtain ⟨addrs, resolved⟩ := Selector.mapM_of_resolvable resolvable
    have size := Selector.mapM_ok_length resolved
    have rounds : Selector.Rounds addrs s :=
      reachable.invariant (Selector.newClient_rounds some_server resolved)
        fun _ _ _ before only taken => before.kept (by omega) only taken
    obtain ⟨a, at_place, answer⟩ := rounds.results i call list out here returned
    obtain ⟨server, named, resolves⟩ := Selector.mapM_getElem? resolved at_place
    exact ⟨server, a, size ▸ named, resolves, answer⟩
  · rintro ⟨server, member, err, failed⟩
    have bare : Bare s := reachable.invariant (newClient_bare member failed)
      fun _ _ _ before only taken => before.kept only taken
    exact bare.results i call list out here returned

end

theorem shipped_started :
    (init (fun _ => Selector.literal) shippedDisk 1 []).run =
      some (.ok (shippedConf, clientsOf (fun _ => Selector.literal) (documentOf shipped))) := by
  have shown := read_represents [[]] shipped.content shipped.fails
  refine (started_iff _ rfl).mpr ⟨_, Prod.ext rfl shipped_read, ?_, ?_⟩
  · exact (readConf_iff shown shipped_unmarked le_rfl shippedConf).mpr shipped_configures
  · exact (loadXrpc_iff _ shown _).mpr ⟨shipped_served, rfl⟩

theorem configured_picks_shipped :
    ∃ client, serviceClient (clientsOf (fun _ => Selector.literal) (documentOf shipped)) (text "xrtc") = some client ∧
      client.connectTimeout = 100 * millisecond ∧
      ∀ s, Reachable Selecting.step Selector.PicksOnly ⟨client.selector, []⟩ s →
        ∀ (i : Nat) call list out, s.calls[i]? = some call → call.result = some (list, out) →
          out = .addr "127.0.0.1:9000" := by
  obtain ⟨there, each⟩ := configured_picks (fun _ => Selector.literal) rfl shipped_started (text "xrtc")
  rw [shipped_document] at there
  obtain ⟨client, found⟩ := Option.isSome_iff_exists.mp (there.trans (by decide +kernel))
  obtain ⟨connect, -, -, values, listed, picks⟩ := each client found
  refine ⟨client, found, ?_, fun s reachable i call list out here returned => ?_⟩
  · rw [connect, shipped_document]
    decide +kernel
  · rw [shipped_document] at listed
    have servers : values = text "127.0.0.1:9000,127.0.0.1:9000" :=
      Option.some.inj (listed.symm.trans (by decide +kernel))
    have names : serverList values = ["127.0.0.1:9000", "127.0.0.1:9000"] := by
      rw [servers]
      decide +kernel
    obtain ⟨server, a, at_place, resolves, answer⟩ :=
      (picks s reachable i call list out here returned).1 fun server _ => ⟨server, rfl⟩
    have member := List.mem_of_getElem? at_place
    rw [names] at member
    have same : server = "127.0.0.1:9000" := by simpa using member
    cases resolves
    rw [answer, same]

end Xrtc.Proof.Framework
