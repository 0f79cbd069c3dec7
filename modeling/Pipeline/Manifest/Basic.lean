/-
Manifests: the workflow resource that a job becomes.

A manifest is a list of templates with a name for the one that runs first. A
template runs a container, or a set of tasks, each of which calls a template with
arguments of its own. What a template takes and gives is declared in the same
form as what a task passes: parameters and artifacts, in order.

Parts that are absent and lists that are empty are left out of the written form.
-/
import Pipeline.Json.Record

set_option autoImplicit false

namespace Pipeline.Manifest

/-! ## Containers -/

/-- A key of a secret. -/
structure SecretKey where
  name : String
  key : String
  deriving DecidableEq

namespace SecretKey

def toJson (secret : SecretKey) : Json :=
  Json.record [Json.field "name" (.string secret.name), Json.field "key" (.string secret.key)]

def ofJson? (document : Json) : Option SecretKey :=
  match document.fields? ["name", "key"] with
  | some [name, key] => do
    return { name := ← Json.required Json.string? name
             key := ← Json.required Json.string? key }
  | _ => none

end SecretKey

/-- An environment variable, with a literal value or one from a secret. -/
structure EnvVar where
  name : String
  value : Option String
  secret : Option SecretKey
  deriving DecidableEq

namespace EnvVar

/-- A variable with a literal value. -/
def literal (name value : String) : EnvVar := ⟨name, some value, none⟩

/-- A variable that is read from a secret. -/
def ofSecret (name : String) (secret : SecretKey) : EnvVar := ⟨name, none, some secret⟩

/-- The source of a variable that is read from a secret. -/
def sourceToJson (secret : SecretKey) : Json :=
  Json.record [Json.field "secretKeyRef" secret.toJson]

def sourceOfJson? (document : Json) : Option SecretKey :=
  match document.fields? ["secretKeyRef"] with
  | some [secret] => Json.required SecretKey.ofJson? secret
  | _ => none

def toJson (env : EnvVar) : Json :=
  Json.record
    [Json.field "name" (.string env.name), Json.field? "value" .string env.value,
     Json.field? "valueFrom" sourceToJson env.secret]

def ofJson? (document : Json) : Option EnvVar :=
  match document.fields? ["name", "value", "valueFrom"] with
  | some [name, value, source] => do
    return { name := ← Json.required Json.string? name
             value := ← Json.optional Json.string? value
             secret := ← Json.optional sourceOfJson? source }
  | _ => none

end EnvVar

/-- A place in a container at which a volume appears. -/
structure VolumeMount where
  name : String
  mountPath : String
  deriving DecidableEq

namespace VolumeMount

def toJson (mount : VolumeMount) : Json :=
  Json.record
    [Json.field "name" (.string mount.name), Json.field "mountPath" (.string mount.mountPath)]

def ofJson? (document : Json) : Option VolumeMount :=
  match document.fields? ["name", "mountPath"] with
  | some [name, mountPath] => do
    return { name := ← Json.required Json.string? name
             mountPath := ← Json.required Json.string? mountPath }
  | _ => none

end VolumeMount

/-- A container to run. -/
structure Container where
  image : String
  command : List String
  args : List String
  workingDir : Option String
  env : List EnvVar
  volumeMounts : List VolumeMount
  deriving DecidableEq

namespace Container

def toJson (container : Container) : Json :=
  Json.record
    [Json.field "image" (.string container.image),
     Json.fieldUnlessEmpty "command" .string container.command,
     Json.fieldUnlessEmpty "args" .string container.args,
     Json.field? "workingDir" .string container.workingDir,
     Json.fieldUnlessEmpty "env" EnvVar.toJson container.env,
     Json.fieldUnlessEmpty "volumeMounts" VolumeMount.toJson container.volumeMounts]

def ofJson? (document : Json) : Option Container :=
  match document.fields? ["image", "command", "args", "workingDir", "env", "volumeMounts"] with
  | some [image, command, args, workingDir, env, volumeMounts] => do
    return { image := ← Json.required Json.string? image
             command := ← Json.defaulted (Json.list? Json.string?) [] command
             args := ← Json.defaulted (Json.list? Json.string?) [] args
             workingDir := ← Json.optional Json.string? workingDir
             env := ← Json.defaulted (Json.list? EnvVar.ofJson?) [] env
             volumeMounts := ← Json.defaulted (Json.list? VolumeMount.ofJson?) [] volumeMounts }
  | _ => none

end Container

/-- A volume of the whole workflow. Only its name is interpreted; whatever else describes it is
passed through. -/
structure Volume where
  name : String
  source : KeyMap FreeForm

namespace Volume

def toJson (volume : Volume) : Json :=
  .object (("name", .string volume.name) ::
    volume.source.entries.map fun (key, field) => (key, field.value))

def ofJson? : Json → Option Volume
  | .object members => do
    let name ← match members.filter (·.1 = "name") with
      | [(_, .string name)] => some name
      | _ => none
    let fields ← (members.filter (·.1 ≠ "name")).mapM fun member =>
      (FreeForm.ofJson? member.2).map (Prod.mk member.1)
    return { name, source := .ofList fields }
  | _ => none

end Volume

/-! ## Parameters and artifacts -/

/-- Where the value of an output parameter is found. -/
structure ValueSource where
  path : Option String
  parameter : Option String
  expression : Option String
  deriving DecidableEq

namespace ValueSource

/-- In a file of the container. -/
def ofPath (path : String) : ValueSource := ⟨some path, none, none⟩

/-- In a parameter that a placeholder names. -/
def ofParameter (reference : String) : ValueSource := ⟨none, some reference, none⟩

/-- In what an expression comes to. -/
def ofExpression (expression : String) : ValueSource := ⟨none, none, some expression⟩

def toJson (source : ValueSource) : Json :=
  Json.record
    [Json.field? "path" .string source.path, Json.field? "parameter" .string source.parameter,
     Json.field? "expression" .string source.expression]

def ofJson? (document : Json) : Option ValueSource :=
  match document.fields? ["path", "parameter", "expression"] with
  | some [path, parameter, expression] => do
    return { path := ← Json.optional Json.string? path
             parameter := ← Json.optional Json.string? parameter
             expression := ← Json.optional Json.string? expression }
  | _ => none

end ValueSource

/-- A string that is declared or passed. -/
structure Parameter where
  name : String
  value : Option String
  source : Option ValueSource
  deriving DecidableEq

namespace Parameter

/-- A parameter without a value. -/
def named (name : String) : Parameter := ⟨name, none, none⟩

/-- A parameter with a value. -/
def withValue (name value : String) : Parameter := ⟨name, some value, none⟩

def toJson (parameter : Parameter) : Json :=
  Json.record
    [Json.field "name" (.string parameter.name), Json.field? "value" .string parameter.value,
     Json.field? "valueFrom" ValueSource.toJson parameter.source]

def ofJson? (document : Json) : Option Parameter :=
  match document.fields? ["name", "value", "valueFrom"] with
  | some [name, value, source] => do
    return { name := ← Json.required Json.string? name
             value := ← Json.optional Json.string? value
             source := ← Json.optional ValueSource.ofJson? source }
  | _ => none

end Parameter

/-- A file or directory that is declared or passed. -/
structure Artifact where
  name : String
  path : Option String
  /-- A placeholder that names another artifact. -/
  reference : Option String
  /-- An expression that selects another artifact. -/
  expression : Option String
  deriving DecidableEq

namespace Artifact

/-- An artifact without a source. -/
def named (name : String) : Artifact := ⟨name, none, none, none⟩

/-- An artifact at a path. -/
def atPath (name path : String) : Artifact := ⟨name, some path, none, none⟩

/-- The artifact that a placeholder names. -/
def ofReference (name reference : String) : Artifact := ⟨name, none, some reference, none⟩

def toJson (artifact : Artifact) : Json :=
  Json.record
    [Json.field "name" (.string artifact.name), Json.field? "path" .string artifact.path,
     Json.field? "from" .string artifact.reference,
     Json.field? "fromExpression" .string artifact.expression]

def ofJson? (document : Json) : Option Artifact :=
  match document.fields? ["name", "path", "from", "fromExpression"] with
  | some [name, path, reference, expression] => do
    return { name := ← Json.required Json.string? name
             path := ← Json.optional Json.string? path
             reference := ← Json.optional Json.string? reference
             expression := ← Json.optional Json.string? expression }
  | _ => none

end Artifact

/-- Changes the first item that satisfies a test. -/
def modifyFirst {α : Type} (test : α → Bool) (change : α → α) : List α → List α
  | [] => []
  | item :: items =>
    if test item then change item :: items else item :: modifyFirst test change items

/-- Parameters and artifacts, declared by a template or passed to one. -/
structure Arguments where
  parameters : List Parameter
  artifacts : List Artifact
  deriving DecidableEq

namespace Arguments

/-- Neither parameters nor artifacts. -/
def empty : Arguments := ⟨[], []⟩

def isEmpty (arguments : Arguments) : Bool :=
  arguments.parameters.isEmpty && arguments.artifacts.isEmpty

/-- The first parameter of a name. -/
def parameter? (arguments : Arguments) (name : String) : Option Parameter :=
  arguments.parameters.find? (·.name = name)

/-- The first artifact of a name. -/
def artifact? (arguments : Arguments) (name : String) : Option Artifact :=
  arguments.artifacts.find? (·.name = name)

/-- Changes the first parameter of a name. -/
def modifyParameter (arguments : Arguments) (name : String) (change : Parameter → Parameter) :
    Arguments :=
  { arguments with parameters := modifyFirst (·.name = name) change arguments.parameters }

/-- Changes the first artifact of a name. -/
def modifyArtifact (arguments : Arguments) (name : String) (change : Artifact → Artifact) :
    Arguments :=
  { arguments with artifacts := modifyFirst (·.name = name) change arguments.artifacts }

/-- One more parameter, behind the others. -/
def addParameter (arguments : Arguments) (parameter : Parameter) : Arguments :=
  { arguments with parameters := arguments.parameters ++ [parameter] }

/-- One more artifact, behind the others. -/
def addArtifact (arguments : Arguments) (artifact : Artifact) : Arguments :=
  { arguments with artifacts := arguments.artifacts ++ [artifact] }

def toJson (arguments : Arguments) : Json :=
  Json.record
    [Json.fieldUnlessEmpty "parameters" Parameter.toJson arguments.parameters,
     Json.fieldUnlessEmpty "artifacts" Artifact.toJson arguments.artifacts]

def ofJson? (document : Json) : Option Arguments :=
  match document.fields? ["parameters", "artifacts"] with
  | some [parameters, artifacts] => do
    return { parameters := ← Json.defaulted (Json.list? Parameter.ofJson?) [] parameters
             artifacts := ← Json.defaulted (Json.list? Artifact.ofJson?) [] artifacts }
  | _ => none

/-- The field of arguments, which is left out when there are none. -/
def toField (name : String) (arguments : Arguments) : Option (String × Json) :=
  if arguments.isEmpty then none else some (name, arguments.toJson)

end Arguments

/-! ## Tasks and templates -/

/-- A call of a template. -/
structure Task where
  name : String
  template : String
  /-- The tasks that have to end before this one starts. -/
  dependencies : List String
  arguments : Arguments
  /-- The guard that lets the task run. -/
  runsWhen : Option String
  /-- The list over which the task fans out. -/
  withParam : Option String
  deriving DecidableEq

namespace Task

/-- An unconditional call without arguments. -/
def calling (name template : String) : Task := ⟨name, template, [], .empty, none, none⟩

def toJson (task : Task) : Json :=
  Json.record
    [Json.field "name" (.string task.name), Json.field "template" (.string task.template),
     Json.fieldUnlessEmpty "dependencies" .string task.dependencies,
     task.arguments.toField "arguments",
     Json.field? "when" .string task.runsWhen, Json.field? "withParam" .string task.withParam]

def ofJson? (document : Json) : Option Task :=
  match document.fields?
      ["name", "template", "dependencies", "arguments", "when", "withParam"] with
  | some [name, template, dependencies, arguments, runsWhen, withParam] => do
    return { name := ← Json.required Json.string? name
             template := ← Json.required Json.string? template
             dependencies := ← Json.defaulted (Json.list? Json.string?) [] dependencies
             arguments := ← Json.defaulted Arguments.ofJson? .empty arguments
             runsWhen := ← Json.optional Json.string? runsWhen
             withParam := ← Json.optional Json.string? withParam }
  | _ => none

end Task

/-- Tasks that run as their dependencies allow. -/
structure Dag where
  tasks : List Task
  deriving DecidableEq

namespace Dag

/-- The first task of a name. -/
def task? (dag : Dag) (name : String) : Option Task := dag.tasks.find? (·.name = name)

def toJson (dag : Dag) : Json :=
  Json.record [Json.field "tasks" (.array (dag.tasks.map Task.toJson))]

def ofJson? (document : Json) : Option Dag :=
  match document.fields? ["tasks"] with
  | some [tasks] => do return { tasks := ← Json.required (Json.list? Task.ofJson?) tasks }
  | _ => none

end Dag

/-- A unit of work that tasks call by its name. -/
structure Template where
  name : String
  inputs : Arguments
  outputs : Arguments
  container : Option Container
  dag : Option Dag
  deriving DecidableEq

namespace Template

/-- A template that runs a container. -/
def ofContainer (name : String) (inputs outputs : Arguments) (container : Container) : Template :=
  ⟨name, inputs, outputs, some container, none⟩

/-- A template that runs tasks. -/
def ofTasks (name : String) (inputs outputs : Arguments) (tasks : List Task) : Template :=
  ⟨name, inputs, outputs, none, some ⟨tasks⟩⟩

def toJson (template : Template) : Json :=
  Json.record
    [Json.field "name" (.string template.name), template.inputs.toField "inputs",
     template.outputs.toField "outputs", Json.field? "container" Container.toJson template.container,
     Json.field? "dag" Dag.toJson template.dag]

def ofJson? (document : Json) : Option Template :=
  match document.fields? ["name", "inputs", "outputs", "container", "dag"] with
  | some [name, inputs, outputs, container, dag] => do
    return { name := ← Json.required Json.string? name
             inputs := ← Json.defaulted Arguments.ofJson? .empty inputs
             outputs := ← Json.defaulted Arguments.ofJson? .empty outputs
             container := ← Json.optional Container.ofJson? container
             dag := ← Json.optional Dag.ofJson? dag }
  | _ => none

/-- The first template of every name that does not stand among those seen, in order. -/
def distinctBeyond (seen : List String) : List Template → List Template
  | [] => []
  | template :: templates =>
    if template.name ∈ seen then distinctBeyond seen templates
    else template :: distinctBeyond (template.name :: seen) templates

/-- The first template of every name, in order. -/
def distinct (templates : List Template) : List Template := distinctBeyond [] templates

end Template

/-! ## Workflows -/

/-- How the cluster knows a resource. -/
structure Metadata where
  name : Option String
  /-- What the cluster completes to a name. -/
  generateName : Option String
  nameSpace : Option String
  labels : KeyMap String
  annotations : KeyMap String
  deriving DecidableEq

namespace Metadata

/-- No metadata. -/
def empty : Metadata := ⟨none, none, none, .empty, .empty⟩

def toJson (metadata : Metadata) : Json :=
  Json.record
    [Json.field? "name" .string metadata.name,
     Json.field? "generateName" .string metadata.generateName,
     Json.field? "namespace" .string metadata.nameSpace,
     Json.mapUnlessEmpty "labels" .string metadata.labels,
     Json.mapUnlessEmpty "annotations" .string metadata.annotations]

def ofJson? (document : Json) : Option Metadata :=
  match document.fields? ["name", "generateName", "namespace", "labels", "annotations"] with
  | some [name, generateName, nameSpace, labels, annotations] => do
    return { name := ← Json.optional Json.string? name
             generateName := ← Json.optional Json.string? generateName
             nameSpace := ← Json.optional Json.string? nameSpace
             labels := ← Json.defaulted (Json.keyMap? Json.string?) .empty labels
             annotations := ← Json.defaulted (Json.keyMap? Json.string?) .empty annotations }
  | _ => none

end Metadata

/-- What a workflow runs. -/
structure Spec where
  /-- The template that runs first. -/
  entrypoint : String
  arguments : Arguments
  templates : List Template
  volumes : List Volume
  serviceAccount : Option String

namespace Spec

def toJson (spec : Spec) : Json :=
  Json.record
    [Json.field "entrypoint" (.string spec.entrypoint), spec.arguments.toField "arguments",
     Json.field "templates" (.array (spec.templates.map Template.toJson)),
     Json.fieldUnlessEmpty "volumes" Volume.toJson spec.volumes,
     Json.field? "serviceAccountName" .string spec.serviceAccount]

def ofJson? (document : Json) : Option Spec :=
  match document.fields?
      ["entrypoint", "arguments", "templates", "volumes", "serviceAccountName"] with
  | some [entrypoint, arguments, templates, volumes, serviceAccount] => do
    return { entrypoint := ← Json.required Json.string? entrypoint
             arguments := ← Json.defaulted Arguments.ofJson? .empty arguments
             templates := ← Json.required (Json.list? Template.ofJson?) templates
             volumes := ← Json.defaulted (Json.list? Volume.ofJson?) [] volumes
             serviceAccount := ← Json.optional Json.string? serviceAccount }
  | _ => none

end Spec

/-- A workflow resource. -/
structure Workflow where
  apiVersion : String
  kind : String
  metadata : Metadata
  spec : Spec

namespace Workflow

/-- The first template of a name. -/
def template? (workflow : Workflow) (name : String) : Option Template :=
  workflow.spec.templates.find? (·.name = name)

/-- The template that runs first. -/
def entrypoint? (workflow : Workflow) : Option Template :=
  workflow.template? workflow.spec.entrypoint

def toJson (workflow : Workflow) : Json :=
  Json.record
    [Json.field "apiVersion" (.string workflow.apiVersion),
     Json.field "kind" (.string workflow.kind),
     Json.field "metadata" workflow.metadata.toJson, Json.field "spec" workflow.spec.toJson]

def ofJson? (document : Json) : Option Workflow :=
  match document.fields? ["apiVersion", "kind", "metadata", "spec"] with
  | some [apiVersion, kind, metadata, spec] => do
    return { apiVersion := ← Json.required Json.string? apiVersion
             kind := ← Json.required Json.string? kind
             metadata := ← Json.required Metadata.ofJson? metadata
             spec := ← Json.required Spec.ofJson? spec }
  | _ => none

end Workflow

end Pipeline.Manifest
