/-
Manifests read back from their documents.

Parts of a manifest leave out what is absent or empty, and so a record has one line
for each of its fields here as well. Volumes are the one type that is not a record:
beside the name there stand, in the same object, all the members that describe the
volume, and they come back only if none of them is called `name` too.

No volume that was read has such a member (`Volume.source_of_ofJson?`), and a job
declares only volumes that were read from its values. So whatever a job is lowered
to reads back.
-/
import Pipeline.Proofs.Records
import Pipeline.Proofs.Seeding

set_option autoImplicit false

namespace Pipeline

open Json (ReadsBack RecordReadsBack)

/-! ## Free-form values -/

namespace Json

mutual
/-- A sorted value is readable, and sorting leaves it as it is. -/
theorem sorted?_of_isSorted : ∀ {value : Json}, value.isSorted = true →
    value.isReadable = true ∧ value.sorted? = some value
  | .null, _ | .bool _, _ | .number _, _ | .string _, _ => ⟨rfl, rfl⟩
  | .unreadable, h => by cases h
  | .array items, h => by
    obtain ⟨hreadable, hitems⟩ := allSorted?_of_allSorted h
    exact ⟨hreadable, by rw [sorted?, hitems, Option.map_some]⟩
  | .object members, h => by
    obtain ⟨hkeys, hvalues⟩ := Bool.and_eq_true_iff.1 h
    obtain ⟨hreadable, hmembers⟩ := membersSorted?_of_membersSorted hvalues
    refine ⟨hreadable, ?_⟩
    rw [sorted?, hmembers, Option.map_some, Entries.sort_of_sorted (of_decide_eq_true hkeys)]
theorem allSorted?_of_allSorted : ∀ {items : List Json}, allSorted items = true →
    allReadable items = true ∧ allSorted? items = some items
  | [], _ => ⟨rfl, rfl⟩
  | item :: items, h => by
    obtain ⟨hitem, hitems⟩ := Bool.and_eq_true_iff.1 h
    obtain ⟨hreadable, hsorted⟩ := sorted?_of_isSorted hitem
    obtain ⟨hallReadable, hallSorted⟩ := allSorted?_of_allSorted hitems
    exact ⟨by rw [allReadable, hreadable, hallReadable, Bool.and_self],
      by rw [allSorted?, hsorted, hallSorted]⟩
theorem membersSorted?_of_membersSorted : ∀ {members : List (String × Json)},
    membersSorted members = true →
      membersReadable members = true ∧ membersSorted? members = some members
  | [], _ => ⟨rfl, rfl⟩
  | (key, value) :: members, h => by
    obtain ⟨hvalue, hmembers⟩ := Bool.and_eq_true_iff.1 h
    obtain ⟨hreadable, hsorted⟩ := sorted?_of_isSorted hvalue
    obtain ⟨hallReadable, hallSorted⟩ := membersSorted?_of_membersSorted hmembers
    exact ⟨by rw [membersReadable, hreadable, hallReadable, Bool.and_self],
      by rw [membersSorted?, hsorted, hallSorted]⟩
end

end Json

theorem FreeForm.ofJson?_value (form : FreeForm) : ofJson? form.value = some form := by
  have hsorted := (Json.sorted?_of_isSorted form.sorted).2
  rw [ofJson?]
  split
  · rename_i value hvalue
    exact congrArg some (FreeForm.ext (Option.some.inj (hvalue.symm.trans hsorted)))
  · rename_i hnone
    rw [hsorted] at hnone
    cases hnone

namespace Manifest

/-! ## Volumes -/

namespace Volume

/-- A volume reads back when nothing beside its name is called so. -/
theorem readsBack {volume : Volume} (h : volume.source.get? "name" = none) :
    ReadsBack ofJson? toJson volume where
  readable := by
    rw [toJson, Json.isReadable_object, List.forall_mem_cons, List.forall_mem_map]
    exact ⟨rfl, fun entry _ => (Json.sorted?_of_isSorted entry.2.sorted).1⟩
  notNull := by simp [toJson]
  reads := by
    have hother : ∀ member ∈ volume.source.entries.map fun entry => (entry.1, entry.2.value),
        member.1 ≠ "name" := by
      rw [List.forall_mem_map]
      intro entry hentry hname
      refine KeyMap.get?_eq_none.1 h ?_
      rw [← hname]
      exact List.mem_map_of_mem hentry
    obtain ⟨hname, hsource⟩ := Json.filter_key (.string volume.name) hother
    have hentries : (volume.source.entries.map fun entry => (entry.1, entry.2.value)).mapM
        (fun member => (FreeForm.ofJson? member.2).map (Prod.mk member.1)) =
          some volume.source.entries := by
      refine Json.mapM_map_eq_some fun entry _ => ?_
      rw [FreeForm.ofJson?_value, Option.map_some]
    rw [toJson, ofJson?]
    simp only [hname, hsource, hentries]
    simp [KeyMap.ofList_entries]

/-- What describes a volume that was read is not called its name. -/
theorem source_of_ofJson? {document : Json} {volume : Volume} (h : ofJson? document = some volume) :
    volume.source.get? "name" = none := by
  cases document with
  | object members =>
    rw [ofJson?] at h
    split at h
    · obtain ⟨name, -, h⟩ := Option.bind_eq_some_iff.1 h
      obtain ⟨fields, hfields, h⟩ := Option.bind_eq_some_iff.1 h
      obtain rfl := Option.some.inj h
      rw [KeyMap.get?_eq_none]
      intro hkey
      obtain ⟨entry, hentry, hname⟩ := List.mem_map.1 hkey
      -- Each entry is a member of the document, and one that is not called the name.
      have hentry := Entries.mem_of_mem_sort hentry
      obtain ⟨member, hmember, hread⟩ := Json.exists_of_mem_mapM hfields hentry
      obtain ⟨form, -, rfl⟩ := Option.map_eq_some_iff.1 hread
      exact of_decide_eq_true (List.mem_filter.1 hmember).2 hname
    · cases h
  | null | bool _ | number _ | string _ | array _ | unreadable => cases h

end Volume

/-! ## Containers -/

theorem SecretKey.readsBack (secret : SecretKey) : ReadsBack ofJson? toJson secret := by
  have hname := (ReadsBack.string secret.name).required "name"
  have hkey := (ReadsBack.string secret.key).required "key"
  refine RecordReadsBack.readsBack ⟨.cons hname.isField (.cons hkey.isField .nil), by decide,
    fun document hfields => ?_⟩ rfl
  simp [ofJson?, hfields, hname.reads, hkey.reads]

theorem EnvVar.source_readsBack (secret : SecretKey) :
    ReadsBack sourceOfJson? sourceToJson secret := by
  have hkey := secret.readsBack.required "secretKeyRef"
  refine RecordReadsBack.readsBack ⟨.cons hkey.isField .nil, by decide,
    fun document hfields => ?_⟩ rfl
  simp [sourceOfJson?, hfields, hkey.reads]

theorem EnvVar.readsBack (env : EnvVar) : ReadsBack ofJson? toJson env := by
  have hname := (ReadsBack.string env.name).required "name"
  have hvalue := ReadsBack.optional env.value (fun text _ => .string text) "value"
  have hsource := ReadsBack.optional env.secret (fun secret _ => source_readsBack secret)
    "valueFrom"
  refine RecordReadsBack.readsBack ⟨.cons hname.isField (.cons hvalue.isField
    (.cons hsource.isField .nil)), by decide, fun document hfields => ?_⟩ rfl
  simp [ofJson?, hfields, hname.reads, hvalue.reads, hsource.reads]

theorem VolumeMount.readsBack (mount : VolumeMount) : ReadsBack ofJson? toJson mount := by
  have hname := (ReadsBack.string mount.name).required "name"
  have hpath := (ReadsBack.string mount.mountPath).required "mountPath"
  refine RecordReadsBack.readsBack ⟨.cons hname.isField (.cons hpath.isField .nil), by decide,
    fun document hfields => ?_⟩ rfl
  simp [ofJson?, hfields, hname.reads, hpath.reads]

theorem Container.readsBack (container : Container) : ReadsBack ofJson? toJson container := by
  have himage := (ReadsBack.string container.image).required "image"
  have hcommand := ReadsBack.listUnlessEmpty container.command (fun text _ => .string text)
    "command"
  have hargs := ReadsBack.listUnlessEmpty container.args (fun text _ => .string text) "args"
  have hdir := ReadsBack.optional container.workingDir (fun text _ => .string text) "workingDir"
  have henv := ReadsBack.listUnlessEmpty container.env (fun env _ => env.readsBack) "env"
  have hmounts := ReadsBack.listUnlessEmpty container.volumeMounts (fun mount _ => mount.readsBack)
    "volumeMounts"
  refine RecordReadsBack.readsBack ⟨.cons himage.isField (.cons hcommand.isField
    (.cons hargs.isField (.cons hdir.isField (.cons henv.isField (.cons hmounts.isField .nil))))),
    by decide, fun document hfields => ?_⟩ rfl
  simp [ofJson?, hfields, himage.reads, hcommand.reads, hargs.reads, hdir.reads, henv.reads,
    hmounts.reads]

/-! ## Parameters and artifacts -/

theorem ValueSource.readsBack (source : ValueSource) : ReadsBack ofJson? toJson source := by
  have hpath := ReadsBack.optional source.path (fun text _ => .string text) "path"
  have hparameter := ReadsBack.optional source.parameter (fun text _ => .string text) "parameter"
  have hexpression := ReadsBack.optional source.expression (fun text _ => .string text)
    "expression"
  refine RecordReadsBack.readsBack ⟨.cons hpath.isField (.cons hparameter.isField
    (.cons hexpression.isField .nil)), by decide, fun document hfields => ?_⟩ rfl
  simp [ofJson?, hfields, hpath.reads, hparameter.reads, hexpression.reads]

theorem Parameter.readsBack (parameter : Parameter) : ReadsBack ofJson? toJson parameter := by
  have hname := (ReadsBack.string parameter.name).required "name"
  have hvalue := ReadsBack.optional parameter.value (fun text _ => .string text) "value"
  have hsource := ReadsBack.optional parameter.source (fun source _ => source.readsBack)
    "valueFrom"
  refine RecordReadsBack.readsBack ⟨.cons hname.isField (.cons hvalue.isField
    (.cons hsource.isField .nil)), by decide, fun document hfields => ?_⟩ rfl
  simp [ofJson?, hfields, hname.reads, hvalue.reads, hsource.reads]

theorem Artifact.readsBack (artifact : Artifact) : ReadsBack ofJson? toJson artifact := by
  have hname := (ReadsBack.string artifact.name).required "name"
  have hpath := ReadsBack.optional artifact.path (fun text _ => .string text) "path"
  have hreference := ReadsBack.optional artifact.reference (fun text _ => .string text) "from"
  have hexpression := ReadsBack.optional artifact.expression (fun text _ => .string text)
    "fromExpression"
  refine RecordReadsBack.readsBack ⟨.cons hname.isField (.cons hpath.isField
    (.cons hreference.isField (.cons hexpression.isField .nil))), by decide,
    fun document hfields => ?_⟩ rfl
  simp [ofJson?, hfields, hname.reads, hpath.reads, hreference.reads, hexpression.reads]

theorem Arguments.readsBack (arguments : Arguments) : ReadsBack ofJson? toJson arguments := by
  have hparameters := ReadsBack.listUnlessEmpty arguments.parameters
    (fun parameter _ => parameter.readsBack) "parameters"
  have hartifacts := ReadsBack.listUnlessEmpty arguments.artifacts
    (fun artifact _ => artifact.readsBack) "artifacts"
  refine RecordReadsBack.readsBack ⟨.cons hparameters.isField (.cons hartifacts.isField .nil),
    by decide, fun document hfields => ?_⟩ rfl
  simp [ofJson?, hfields, hparameters.reads, hartifacts.reads]

/-- Arguments that are left out are none. -/
theorem Arguments.fieldReadsBack (arguments : Arguments) (name : String) :
    Json.FieldReadsBack name (arguments.toField name) (Json.defaulted ofJson? .empty)
      arguments := by
  refine ReadsBack.unless name arguments.readsBack ?_
  rw [toField]
  split
  · rename_i hempty
    obtain ⟨parameters, artifacts⟩ := arguments
    obtain ⟨hparameters, hartifacts⟩ := Bool.and_eq_true_iff.1 hempty
    obtain rfl := List.isEmpty_iff.1 hparameters
    obtain rfl := List.isEmpty_iff.1 hartifacts
    exact .inr ⟨rfl, rfl⟩
  · exact .inl rfl

/-! ## Tasks and templates -/

theorem Task.readsBack (task : Task) : ReadsBack ofJson? toJson task := by
  have hname := (ReadsBack.string task.name).required "name"
  have htemplate := (ReadsBack.string task.template).required "template"
  have hdependencies := ReadsBack.listUnlessEmpty task.dependencies (fun text _ => .string text)
    "dependencies"
  have harguments := task.arguments.fieldReadsBack "arguments"
  have hwhen := ReadsBack.optional task.runsWhen (fun text _ => .string text) "when"
  have hparam := ReadsBack.optional task.withParam (fun text _ => .string text) "withParam"
  refine RecordReadsBack.readsBack ⟨.cons hname.isField (.cons htemplate.isField
    (.cons hdependencies.isField (.cons harguments.isField (.cons hwhen.isField
    (.cons hparam.isField .nil))))), by decide, fun document hfields => ?_⟩ rfl
  simp [ofJson?, hfields, hname.reads, htemplate.reads, hdependencies.reads, harguments.reads,
    hwhen.reads, hparam.reads]

theorem Dag.readsBack (dag : Dag) : ReadsBack ofJson? toJson dag := by
  have htasks := (ReadsBack.list dag.tasks fun task _ => task.readsBack).required "tasks"
  refine RecordReadsBack.readsBack ⟨.cons htasks.isField .nil, by decide,
    fun document hfields => ?_⟩ rfl
  simp [ofJson?, hfields, htasks.reads]

theorem Template.readsBack (template : Template) : ReadsBack ofJson? toJson template := by
  have hname := (ReadsBack.string template.name).required "name"
  have hinputs := template.inputs.fieldReadsBack "inputs"
  have houtputs := template.outputs.fieldReadsBack "outputs"
  have hcontainer := ReadsBack.optional template.container (fun container _ => container.readsBack)
    "container"
  have hdag := ReadsBack.optional template.dag (fun dag _ => dag.readsBack) "dag"
  refine RecordReadsBack.readsBack ⟨.cons hname.isField (.cons hinputs.isField
    (.cons houtputs.isField (.cons hcontainer.isField (.cons hdag.isField .nil)))), by decide,
    fun document hfields => ?_⟩ rfl
  simp [ofJson?, hfields, hname.reads, hinputs.reads, houtputs.reads, hcontainer.reads, hdag.reads]

/-! ## Workflows -/

theorem Metadata.readsBack (metadata : Metadata) : ReadsBack ofJson? toJson metadata := by
  have hname := ReadsBack.optional metadata.name (fun text _ => .string text) "name"
  have hgenerate := ReadsBack.optional metadata.generateName (fun text _ => .string text)
    "generateName"
  have hspace := ReadsBack.optional metadata.nameSpace (fun text _ => .string text) "namespace"
  have hlabels := ReadsBack.mapUnlessEmpty metadata.labels (fun entry _ => .string entry.2)
    "labels"
  have hannotations := ReadsBack.mapUnlessEmpty metadata.annotations
    (fun entry _ => .string entry.2) "annotations"
  refine RecordReadsBack.readsBack ⟨.cons hname.isField (.cons hgenerate.isField
    (.cons hspace.isField (.cons hlabels.isField (.cons hannotations.isField .nil)))), by decide,
    fun document hfields => ?_⟩ rfl
  simp [ofJson?, hfields, hname.reads, hgenerate.reads, hspace.reads, hlabels.reads,
    hannotations.reads]

theorem Spec.readsBack {spec : Spec}
    (h : ∀ volume ∈ spec.volumes, volume.source.get? "name" = none) :
    ReadsBack ofJson? toJson spec := by
  have hentrypoint := (ReadsBack.string spec.entrypoint).required "entrypoint"
  have harguments := spec.arguments.fieldReadsBack "arguments"
  have htemplates := (ReadsBack.list spec.templates fun template _ =>
    template.readsBack).required "templates"
  have hvolumes := ReadsBack.listUnlessEmpty spec.volumes
    (fun volume hvolume => Volume.readsBack (h volume hvolume)) "volumes"
  have haccount := ReadsBack.optional spec.serviceAccount (fun text _ => .string text)
    "serviceAccountName"
  refine RecordReadsBack.readsBack ⟨.cons hentrypoint.isField (.cons harguments.isField
    (.cons htemplates.isField (.cons hvolumes.isField (.cons haccount.isField .nil)))), by decide,
    fun document hfields => ?_⟩ rfl
  simp [ofJson?, hfields, hentrypoint.reads, harguments.reads, htemplates.reads, hvolumes.reads,
    haccount.reads]

theorem Workflow.readsBack {workflow : Workflow}
    (h : ∀ volume ∈ workflow.spec.volumes, volume.source.get? "name" = none) :
    ReadsBack ofJson? toJson workflow := by
  have hversion := (ReadsBack.string workflow.apiVersion).required "apiVersion"
  have hkind := (ReadsBack.string workflow.kind).required "kind"
  have hmetadata := workflow.metadata.readsBack.required "metadata"
  have hspec := (Spec.readsBack h).required "spec"
  refine RecordReadsBack.readsBack ⟨.cons hversion.isField (.cons hkind.isField
    (.cons hmetadata.isField (.cons hspec.isField .nil))), by decide,
    fun document hfields => ?_⟩ rfl
  simp [ofJson?, hfields, hversion.reads, hkind.reads, hmetadata.reads, hspec.reads]

end Manifest

/-! ## Lowered jobs -/

open Manifest (Volume Workflow)

namespace Seed

/-- What a text denotes was read from a document. -/
theorem exists_document_of_denoted {α : Type} {ofJson? : Json → Option α} {text : String}
    {value : α} (h : denoted ofJson? text = .ok value) :
    ∃ document, ofJson? document = some value := by
  rw [denoted] at h
  split at h
  · rename_i found hfound
    obtain rfl := Except.ok.inj h
    obtain ⟨document, -, hread⟩ := Option.bind_eq_some_iff.1 hfound
    exact ⟨document, hread⟩
  · cases h

/-- A value declares at most one volume more, and that one was read from it. -/
theorem Gives.volume_of_mem {seed after : Seed} {port : Port} {payload : Payload}
    (h : seed.Gives port payload after) {volume : Volume} (hvolume : volume ∈ after.volumes) :
    volume ∈ seed.volumes ∨ ∃ document, Volume.ofJson? document = some volume := by
  cases h with
  | artifact | text | list | secret => exact .inl hvolume
  | @volume text given htype hdenoted =>
    rw [bindVolume] at hvolume
    split at hvolume
    · exact .inl hvolume
    · rcases List.mem_append.1 hvolume with hvolume | hvolume
      · exact .inl hvolume
      · obtain rfl := List.mem_singleton.1 hvolume
        exact .inr (exists_document_of_denoted hdenoted)

/-- No volume that a job declares is described by a member that is called its name. -/
theorem source_of_ofValues {root : Component} {values : List InputValue} {seed : Seed}
    (h : ofValues root values = .ok seed) :
    ∀ volume ∈ seed.volumes, volume.source.get? "name" = none := by
  refine giveAll_invariant
    (motive := fun seed => ∀ volume ∈ seed.volumes, volume.source.get? "name" = none)
    (fun seed port after value _ _ hgives hseed volume hvolume => ?_) h ?_
  · rcases hgives.volume_of_mem hvolume with hvolume | ⟨document, hread⟩
    · exact hseed volume hvolume
    · exact Volume.source_of_ofJson? hread
  · intro volume hvolume
    cases hvolume

end Seed

/-- **Manifests read back.** What is read from the document of a manifest is what the document was
written for, provided that no member that describes a volume takes the place of its name. No volume
that was read from any document has such a member, and so every manifest that a job is lowered to
reads back, whatever the settings. -/
theorem Manifest.manifests_read_back :
    (∀ workflow : Workflow, (∀ volume ∈ workflow.spec.volumes, volume.source.get? "name" = none) →
        Workflow.ofJson? workflow.toJson = some workflow) ∧
      (∀ document volume, Volume.ofJson? document = some volume →
        volume.source.get? "name" = none) ∧
      ∀ (job : Job) (settings : Settings) (workflow : Workflow),
        job.lower settings = .ok workflow →
          Workflow.ofJson? workflow.toJson = some workflow := by
  refine ⟨fun workflow h => (Workflow.readsBack h).reads, ?_, ?_⟩
  · intro document volume hread
    exact Volume.source_of_ofJson? hread
  · intro job settings workflow hlower
    obtain ⟨root, seed, templates, -, hseed, -, hvolumes, -⟩ := Job.exists_seed hlower
    refine (Workflow.readsBack ?_).reads
    rw [hvolumes]
    exact Seed.source_of_ofValues hseed

/-- A brick that mounts the volume of the job's one value. -/
def Job.diskJob : Job where
  workflow := ⟨.repeating 9, "job", "space", .inline (.volumeBrick 1)⟩
  inputs := [⟨"in", .text "\x7b\"name\":\"disk\",\"emptyDir\":\x7b\"sizeLimit\":1\x7d\x7d"⟩]

/-- The manifest of the job declares the volume with what describes it, and reads back; the volume
itself can be read from its document. -/
theorem Job.diskJob_manifest :
    (∃ workflow, diskJob.lower .default = .ok workflow ∧
      workflow.spec.volumes.map (fun volume => (volume.name, volume.source.keys)) =
        [("disk", ["emptyDir"])] ∧
      (∀ volume ∈ workflow.spec.volumes, volume.source.get? "name" = none) ∧
      Workflow.ofJson? workflow.toJson = some workflow) ∧
    ∃ volume, Volume.ofJson? (.object [("emptyDir", .object []), ("name", .string "disk")]) =
      some volume ∧ volume.source.get? "name" = none := by
  obtain ⟨hback, hsource, -⟩ := Manifest.manifests_read_back
  constructor
  · have hlowered : ∃ workflow, diskJob.lower .default = .ok workflow ∧
        workflow.spec.volumes.map (fun volume => (volume.name, volume.source.keys)) =
          [("disk", ["emptyDir"])] := by
      rw [← exists_ok_iff]
      decide +kernel
    obtain ⟨workflow, hok, hvolumes⟩ := hlowered
    have hnone : ∀ volume ∈ workflow.spec.volumes, volume.source.get? "name" = none := by
      intro volume hvolume
      have hkeys : (volume.name, volume.source.keys) ∈ [("disk", ["emptyDir"])] := by
        rw [← hvolumes]
        exact List.mem_map_of_mem hvolume
      obtain ⟨-, hkeys⟩ := Prod.mk.inj (List.mem_singleton.1 hkeys)
      rw [KeyMap.get?_eq_none, hkeys]
      decide
    exact ⟨workflow, hok, hvolumes, hnone, hback workflow hnone⟩
  · have hsome : (Volume.ofJson? (.object [("emptyDir", .object []),
        ("name", .string "disk")])).isSome := by decide
    obtain ⟨volume, hread⟩ := Option.isSome_iff_exists.1 hsome
    exact ⟨volume, hread, hsource _ volume hread⟩

end Pipeline
