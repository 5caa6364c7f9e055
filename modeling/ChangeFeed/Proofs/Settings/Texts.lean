import ChangeFeed.Proofs.Settings.Guesses
import ChangeFeed.Proofs.Settings.Records

/-!
# Settings that are texts

A variable of the environment wins over the files and the settings at hand, whatever they hold. So
what a setting that is a text is loaded as depends on the text of its variable alone, and is that
text as `retold` has it.

* `TextSetting` lists the settings that are texts, with the place and the variable of each.
* `standsAt_of_holds`: what the environment holds for a setting stands at the setting's place.
* `value?_of_standsAt`: what stands at the place of a setting is what the setting is read as.
* `retold_of_variable`: the setting of a variable is its text retold, and so its text exactly if
  that is one of the verbatim ones.
-/

namespace ChangeFeed.Settings

/-- The settings that are texts. -/
inductive TextSetting where
  | orchestratorAddress
  | orchestratorToken
  | orchestratorRegion
  | keyPrefix
  | consulAddress
  | consulToken
  | embeddedPath
  | webAddress
  | kafkaBrokers
  | kafkaTopic
  | sqsQueueUrl
  | sqsRegion
  | sqsGroupId
  deriving DecidableEq

namespace TextSetting

/-- The names on the way to a setting. -/
def names : TextSetting → List String
  | orchestratorAddress => ["upstream", "address"]
  | orchestratorToken => ["upstream", "token"]
  | orchestratorRegion => ["upstream", "region"]
  | keyPrefix => ["coordination", "key_prefix"]
  | consulAddress => ["coordination", "consul", "address"]
  | consulToken => ["coordination", "consul", "token"]
  | embeddedPath => ["coordination", "local", "db_path"]
  | webAddress => ["sink", "http", "address"]
  | kafkaBrokers => ["sink", "kafka", "brokers"]
  | kafkaTopic => ["sink", "kafka", "topic"]
  | sqsQueueUrl => ["sink", "sqs", "queue_url"]
  | sqsRegion => ["sink", "sqs", "region"]
  | sqsGroupId => ["sink", "sqs", "group_id"]

/-- What a setting is; there are settings that may be left out. -/
def value? (setting : TextSetting) (s : Settings) : Option String :=
  match setting with
  | orchestratorAddress => some s.orchestrator.address
  | orchestratorToken => s.orchestrator.token
  | orchestratorRegion => s.orchestrator.region
  | keyPrefix => some s.coordination.keyPrefix
  | consulAddress => some s.coordination.consul.address
  | consulToken => s.coordination.consul.token
  | embeddedPath => some s.coordination.embedded.path
  | webAddress => s.output.web.address
  | kafkaBrokers => s.output.kafka.brokers
  | kafkaTopic => s.output.kafka.topic
  | sqsQueueUrl => s.output.sqs.queueUrl
  | sqsRegion => s.output.sqs.region
  | sqsGroupId => some s.output.sqs.groupId

/-- The variable of a setting. -/
def variableName (setting : TextSetting) : String :=
  "__".intercalate ("FIREHOSE" :: setting.names.map String.toUpper)

end TextSetting

/-- The path that the value of a variable is put at. -/
def pathOf? (name : String) : Option (List Node.Step) := (environmentPath? name).map steps

theorem pathOf?_variableName (setting : TextSetting) :
    pathOf? setting.variableName = some (Node.pathTo setting.names) := by
  cases setting <;> decide +kernel

theorem TextSetting.lower_names (setting : TextSetting) :
    ∀ name ∈ setting.names, Text.lower name = name := by
  cases setting <;> decide +kernel

/-- Whether a variable takes the place of what was put for a setting before. -/
def Displaces (entry : String × String) (setting : TextSetting) : Prop :=
  entry.2 ≠ "" ∧ ∃ path, pathOf? entry.1 = some path ∧ Node.covers path setting.names = true

/-- Whether the environment holds a text for a setting: a variable of the setting has it, and no
later variable takes its place. -/
def Holds (environment : List (String × String)) (setting : TextSetting) (v : String) : Prop :=
  v ≠ "" ∧ ∃ before name after, environment = before ++ (name, v) :: after ∧
    pathOf? name = some (Node.pathTo setting.names) ∧ ∀ entry ∈ after, ¬ Displaces entry setting

/-! ## What stands at a place -/

/-- Whether a node is a certain scalar, if it is one at all. -/
def Tells (value : Scalar) (node : Node) : Prop :=
  (∃ origin, node = .scalar origin value) ∨ node.isScalar = false

/-- Whether a node that tells a certain scalar stands at a place. -/
def StandsAt (value : Scalar) (names : List String) (root : Node) : Prop :=
  ∃ node, root.at? names = some node ∧ Tells value node

variable {value : Scalar} {names : List String} {root after : Node}

theorem StandsAt.putAt {path : List Node.Step} {other : Node} (hroot : StandsAt value names root)
    (hother : other.isScalar = true) (hcovers : Node.covers path names = false)
    (h : Node.putAt path other root = .ok after) : StandsAt value names after := by
  obtain ⟨node, hnode, htells⟩ := hroot
  obtain ⟨left, hleft, rfl | hparts⟩ := Node.at?_putAt_of_not_covers hother h hcovers hnode
  · exact ⟨left, hleft, htells⟩
  · exact ⟨left, hleft, Or.inr hparts⟩

theorem addLayer_cons {path : String} {node : Node} {rest : Layer}
    (h : addLayer root ((path, node) :: rest) = .ok after) :
    ∃ next, Node.putAt (steps path) node root = .ok next ∧ addLayer next rest = .ok after := by
  rw [addLayer, List.foldlM_cons] at h
  exact bind_eq_ok_iff.mp h

theorem addLayer_append {first second : Layer}
    (h : addLayer root (first ++ second) = .ok after) :
    ∃ next, addLayer root first = .ok next ∧ addLayer next second = .ok after := by
  rw [addLayer, List.foldlM_append] at h
  exact bind_eq_ok_iff.mp h

/-- A scalar stays where it stands while others are put elsewhere. -/
theorem StandsAt.addLayer {layer : Layer} (hroot : StandsAt value names root)
    (hscalars : ∀ entry ∈ layer, entry.2.isScalar = true)
    (hcovers : ∀ entry ∈ layer, Node.covers (steps entry.1) names = false)
    (h : addLayer root layer = .ok after) : StandsAt value names after := by
  induction layer generalizing root with
  | nil => exact Except.ok.inj h ▸ hroot
  | cons entry rest ih =>
    obtain ⟨path, other⟩ := entry
    obtain ⟨next, hput, hrest⟩ := addLayer_cons h
    have hnext : StandsAt value names next :=
      hroot.putAt (hscalars _ List.mem_cons_self) (hcovers _ List.mem_cons_self) hput
    exact ih hnext (fun entry hentry => hscalars entry (List.mem_cons_of_mem _ hentry))
      (fun entry hentry => hcovers entry (List.mem_cons_of_mem _ hentry)) hrest

/-! ## The environment -/

theorem mem_environmentLayer {environment : List (String × String)} {entry : String × Node}
    (h : entry ∈ environmentLayer environment) : entry.2.isScalar = true ∧
      ∃ name v, (name, v) ∈ environment ∧ v ≠ "" ∧ environmentPath? name = some entry.1 := by
  obtain ⟨⟨name, v⟩, hmem, hentry⟩ := List.mem_filterMap.mp h
  by_cases hv : v = ""
  · simp [hv] at hentry
  · simp only [if_neg hv, Option.map_eq_some_iff] at hentry
    obtain ⟨path, hpath, rfl⟩ := hentry
    exact ⟨rfl, name, v, hmem, hv, hpath⟩

theorem environmentLayer_append (before after : List (String × String)) :
    environmentLayer (before ++ after) = environmentLayer before ++ environmentLayer after :=
  List.filterMap_append

theorem environmentLayer_cons {name v path : String} (hv : v ≠ "")
    (hpath : environmentPath? name = some path) (after : List (String × String)) :
    environmentLayer ((name, v) :: after) =
      (path, .scalar (some "the environment") (guess v)) :: environmentLayer after := by
  simp [environmentLayer, hv, hpath]

/-- After the environment the text that it holds for a setting stands at the setting's place. -/
theorem standsAt_of_holds {environment : List (String × String)} {setting : TextSetting}
    {v : String} (hholds : Holds environment setting v)
    (h : addLayer root (environmentLayer environment) = .ok after) :
    StandsAt (guess v) setting.names after := by
  obtain ⟨hv, before, name, later, rfl, hname, hlater⟩ := hholds
  obtain ⟨path, hpath, hsteps⟩ := Option.map_eq_some_iff.mp hname
  rw [environmentLayer_append, environmentLayer_cons hv hpath] at h
  obtain ⟨here, -, hrest⟩ := addLayer_append h
  obtain ⟨next, hput, hrest⟩ := addLayer_cons hrest
  rw [hsteps] at hput
  have hnext : StandsAt (guess v) setting.names next :=
    ⟨_, Node.at?_putAt_self rfl setting.lower_names hput, Or.inl ⟨_, rfl⟩⟩
  refine hnext.addLayer (fun entry hentry => (mem_environmentLayer hentry).1) ?_ hrest
  intro entry hentry
  obtain ⟨-, other, w, hmem, hw, hother⟩ := mem_environmentLayer hentry
  rw [← Bool.not_eq_true]
  intro hcovers
  exact hlater (other, w) hmem ⟨hw, steps entry.1, congrArg (Option.map steps) hother, hcovers⟩

/-! ## Reading -/

variable {v : String} {node : Node}

theorem eq_retold_of_text {t : String} (htells : Tells (guess v) node)
    (h : Form.text.ofNode node = .ok t) : t = retold v := by
  have hread : node.text = .ok t := h
  obtain ⟨origin, rfl⟩ | hparts := htells
  · rw [text_scalar (guess_ne_absent v)] at hread
    exact (Except.ok.inj hread).symm
  · cases node with
    | scalar origin value => cases hparts
    | table origin fields => cases hread
    | list origin items => cases hread

theorem eq_retold_of_optional {t? : Option String} (htells : Tells (guess v) node)
    (h : (Form.optional .text).ofNode node = .ok t?) : t? = some (retold v) := by
  have hpresent : (Form.optional .text).ofNode node = (Form.text.ofNode node).map some := by
    obtain ⟨origin, rfl⟩ | hparts := htells
    · cases hguess : guess v with
      | absent => exact absurd hguess (guess_ne_absent v)
      | _ => rfl
    · cases node with
      | scalar origin value => cases hparts
      | _ => rfl
  rw [hpresent] at h
  cases htext : Form.text.ofNode node with
  | error fault => rw [htext] at h; cases h
  | ok t =>
    rw [htext] at h
    rw [← Except.ok.inj h, eq_retold_of_text htells htext]

variable {α : Type} {name : String}

/-- What stands below a name is in the record that is read from there. -/
theorem StandsAt.below {form : Form α} {a : α} (h : StandsAt value (name :: names) root)
    (hgives : Gives root name form a) :
    ∃ below, form.ofNode below = .ok a ∧ StandsAt value names below := by
  obtain ⟨node, hnode, htells⟩ := h
  rw [Node.at?_cons, Option.bind_eq_some_iff] at hnode
  obtain ⟨below, hbelow, hnode⟩ := hnode
  have hat : root.at? [name] = some below := by
    rw [Node.at?_cons, hbelow, Option.bind_some, Node.at?_nil]
  exact ⟨below, hgives below hat, node, hnode, htells⟩

theorem StandsAt.eq_text {t : String} (h : StandsAt (guess v) [name] root)
    (hgives : Gives root name .text t) : t = retold v := by
  obtain ⟨node, hnode, htells⟩ := h
  exact eq_retold_of_text htells (hgives node hnode)

theorem StandsAt.eq_optional {t? : Option String} (h : StandsAt (guess v) [name] root)
    (hgives : Gives root name (.optional .text) t?) : t? = some (retold v) := by
  obtain ⟨node, hnode, htells⟩ := h
  exact eq_retold_of_optional htells (hgives node hnode)

/-- What stands at the place of a setting is what the setting is read as. -/
theorem value?_of_standsAt {setting : TextSetting} {s : Settings}
    (hstands : StandsAt (guess v) setting.names root) (h : form.ofNode root = .ok s) :
    setting.value? s = some (retold v) := by
  obtain ⟨horchestrator, hcoordination, houtput⟩ := gives_of_ofNode h
  cases setting with
  | orchestratorAddress =>
    obtain ⟨below, hbelow, hstands⟩ := hstands.below horchestrator
    exact congrArg some (hstands.eq_text (Orchestrator.gives_of_ofNode hbelow).1)
  | orchestratorToken =>
    obtain ⟨below, hbelow, hstands⟩ := hstands.below horchestrator
    exact hstands.eq_optional (Orchestrator.gives_of_ofNode hbelow).2.1
  | orchestratorRegion =>
    obtain ⟨below, hbelow, hstands⟩ := hstands.below horchestrator
    exact hstands.eq_optional (Orchestrator.gives_of_ofNode hbelow).2.2
  | keyPrefix =>
    obtain ⟨below, hbelow, hstands⟩ := hstands.below hcoordination
    exact congrArg some (hstands.eq_text (Coordination.gives_of_ofNode hbelow).1)
  | consulAddress =>
    obtain ⟨below, hbelow, hstands⟩ := hstands.below hcoordination
    obtain ⟨consul, hconsul, hstands⟩ :=
      hstands.below (Coordination.gives_of_ofNode hbelow).2.1
    exact congrArg some (hstands.eq_text (Consul.gives_of_ofNode hconsul).1)
  | consulToken =>
    obtain ⟨below, hbelow, hstands⟩ := hstands.below hcoordination
    obtain ⟨consul, hconsul, hstands⟩ :=
      hstands.below (Coordination.gives_of_ofNode hbelow).2.1
    exact hstands.eq_optional (Consul.gives_of_ofNode hconsul).2
  | embeddedPath =>
    obtain ⟨below, hbelow, hstands⟩ := hstands.below hcoordination
    obtain ⟨embedded, hembedded, hstands⟩ :=
      hstands.below (Coordination.gives_of_ofNode hbelow).2.2
    exact congrArg some (hstands.eq_text (Embedded.gives_of_ofNode hembedded))
  | webAddress =>
    obtain ⟨below, hbelow, hstands⟩ := hstands.below houtput
    obtain ⟨web, hweb, hstands⟩ := hstands.below (Output.gives_of_ofNode hbelow).1
    exact hstands.eq_optional (Web.gives_of_ofNode hweb)
  | kafkaBrokers =>
    obtain ⟨below, hbelow, hstands⟩ := hstands.below houtput
    obtain ⟨kafka, hkafka, hstands⟩ := hstands.below (Output.gives_of_ofNode hbelow).2.1
    exact hstands.eq_optional (Kafka.gives_of_ofNode hkafka).1
  | kafkaTopic =>
    obtain ⟨below, hbelow, hstands⟩ := hstands.below houtput
    obtain ⟨kafka, hkafka, hstands⟩ := hstands.below (Output.gives_of_ofNode hbelow).2.1
    exact hstands.eq_optional (Kafka.gives_of_ofNode hkafka).2
  | sqsQueueUrl =>
    obtain ⟨below, hbelow, hstands⟩ := hstands.below houtput
    obtain ⟨sqs, hsqs, hstands⟩ := hstands.below (Output.gives_of_ofNode hbelow).2.2
    exact hstands.eq_optional (Sqs.gives_of_ofNode hsqs).1
  | sqsRegion =>
    obtain ⟨below, hbelow, hstands⟩ := hstands.below houtput
    obtain ⟨sqs, hsqs, hstands⟩ := hstands.below (Output.gives_of_ofNode hbelow).2.2
    exact hstands.eq_optional (Sqs.gives_of_ofNode hsqs).2.1
  | sqsGroupId =>
    obtain ⟨below, hbelow, hstands⟩ := hstands.below houtput
    obtain ⟨sqs, hsqs, hstands⟩ := hstands.below (Output.gives_of_ofNode hbelow).2.2
    exact congrArg some (hstands.eq_text (Sqs.gives_of_ofNode hsqs).2.2)

/-! ## Layers with the environment on top -/

theorem value?_of_ofLayers {environment : List (String × String)} {setting : TextSetting}
    {s : Settings} (hholds : Holds environment setting v) (below : List Layer)
    (h : ofLayers (below ++ [environmentLayer environment]) = .ok s) :
    setting.value? s = some (retold v) := by
  obtain ⟨root, hroot, hread⟩ := bind_eq_ok_iff.mp h
  rw [List.foldlM_append] at hroot
  obtain ⟨here, -, hroot⟩ := bind_eq_ok_iff.mp hroot
  rw [List.foldlM_cons] at hroot
  obtain ⟨top, htop, hroot⟩ := bind_eq_ok_iff.mp hroot
  obtain rfl := Except.ok.inj hroot
  exact value?_of_standsAt (standsAt_of_holds hholds htop) hread

/-- The law of the texts of the environment: the setting of a variable is the variable's text
retold, whether the settings are loaded or put over others, and it is the text itself exactly if the
text is a verbatim one. -/
theorem retold_of_variable {environment : List (String × String)} {setting : TextSetting}
    {v : String} (hholds : Holds environment setting v) (files : Files) {s : Settings}
    (h : load environment files = .ok s ∨
      ∃ present name, Settings.override present environment files name = .ok s) :
    setting.value? s = some (retold v) ∧ (setting.value? s = some v ↔ Verbatim v) := by
  have hvalue : setting.value? s = some (retold v) := by
    rcases h with h | ⟨present, name, h⟩
    · obtain ⟨defaults, -, h⟩ := bind_eq_ok_iff.mp h
      have hfile : ∃ file, ofLayers [defaults, file, environmentLayer environment] = .ok s := by
        cases hname : environment.lookup fileVariable with
        | none =>
          simp only [hname] at h
          exact ⟨[], h⟩
        | some name =>
          simp only [hname] at h
          obtain ⟨file, -, h⟩ := bind_eq_ok_iff.mp h
          exact ⟨file, h⟩
      obtain ⟨file, h⟩ := hfile
      exact value?_of_ofLayers hholds [defaults, file] h
    · obtain ⟨layer, -, h⟩ := bind_eq_ok_iff.mp h
      obtain ⟨file, -, h⟩ := bind_eq_ok_iff.mp h
      exact value?_of_ofLayers hholds [layer, file] h
  refine ⟨hvalue, ?_⟩
  rw [hvalue, Option.some.injEq, retold_eq_iff]

/-- A token of digits loses its leading zero. -/
theorem retold_of_variable_of_token :
    ∃ s, load [("FIREHOSE__UPSTREAM__TOKEN", "0123")] ⟨"/", [], []⟩ = .ok s ∧
      s.orchestrator.token = some "123" ∧ ¬ Verbatim "0123" := by
  have hload : (load [("FIREHOSE__UPSTREAM__TOKEN", "0123")] ⟨"/", [], []⟩).isOk = true := by
    decide +kernel
  have hname : TextSetting.orchestratorToken.variableName = "FIREHOSE__UPSTREAM__TOKEN" := by
    decide +kernel
  have hholds : Holds [("FIREHOSE__UPSTREAM__TOKEN", "0123")] .orchestratorToken "0123" :=
    ⟨by decide, [], _, [], rfl, hname ▸ pathOf?_variableName .orchestratorToken, nofun⟩
  have hretold : retold "0123" = "123" := rfl
  cases hs : load [("FIREHOSE__UPSTREAM__TOKEN", "0123")] ⟨"/", [], []⟩ with
  | error fault => rw [hs] at hload; cases hload
  | ok s =>
    obtain ⟨hvalue, hkept⟩ := retold_of_variable hholds ⟨"/", [], []⟩ (Or.inl hs)
    rw [hretold] at hvalue
    refine ⟨s, rfl, hvalue, fun hverbatim => ?_⟩
    have hsame : some "123" = some "0123" := hvalue.symm.trans (hkept.mpr hverbatim)
    exact absurd hsame (by decide)

end ChangeFeed.Settings
