import BuildEngine.Kind.Library
import BuildEngine.Text.Blank

/-!
The catalogue of classes: what the qualified names in definitions of tasks and types lead to. A
qualified name is the name of a module and that of a class in it, with a colon or else the last
point between them. A module offers the classes that it declares and those that it passes on, and
other things that are no classes.
-/

namespace BuildEngine

open BuildEngine.Text

/-- What a module offers: classes by the module that declares them, and other things by the name
of their type. -/
inductive Offer where
  | classes (home : String) (names : List String)
  | values (type : String) (names : List String)
  deriving Repr, Inhabited

/-- A module of the catalogue. -/
structure Module where
  name : String
  /-- Whether there are modules inside of it. -/
  isPackage : Bool
  offers : List Offer
  deriving Repr, Inhabited

/-- A class: the module that declares it and its name. -/
structure ClassName where
  home : String
  name : String
  deriving Repr, DecidableEq, Inhabited

namespace ClassName

def text (c : ClassName) : String := s!"{c.home}.{c.name}"

end ClassName

/-- Why a qualified name leads to no class. -/
inductive LookupError where
  | notQualified (name : String)
  /-- A name that starts with a point says nothing without a place to start from. -/
  | relative (name : String)
  | noModule (name : String)
  | noPackage (name parent : String)
  | noMember (module name : String)
  | noClass (name type : String)
  | otherBase (name base actual : String)
  deriving Repr, DecidableEq, Inhabited

namespace LookupError

def message : LookupError → String
  | notQualified name => s!"not a fully qualified class name: {quote name}"
  | relative name =>
    s!"the 'package' argument is required to perform a relative import for {quote name}"
  | noModule name => s!"No module named {quote name}"
  | noPackage name parent => s!"No module named {quote name}; {quote parent} is not a package"
  | noMember module name => s!"module {quote module} has no member {quote name}"
  | noClass name type => s!"expected type object at {quote name}, got {type}"
  | otherBase name base actual => s!"expected subclass of {base} at {quote name}, got {actual}"

end LookupError

namespace Catalogue

/-- The modules of the catalogue. -/
def modules : List Module := [
  ⟨"anvil", true, [.values "module" ["common", "core", "std"]]⟩,
  ⟨"anvil.common", true, [.classes "anvil.common._generic" ["NotSet"], .classes
    "anvil.common._option_sets" ["LoggingOptions"], .classes "anvil.common._tomlconfig"
    ["TomlConfigFile"], .classes "anvil.common.supplier" ["Supplier"], .values "str"
    ["__version__"], .values "function" ["not_none", "appending_to_sys_path", "import_class",
    "pluralize"], .values "list" ["__all__"], .values "module" ["_generic", "_importlib",
    "_option_sets", "_text", "_tomlconfig", "supplier"], .values "NoneType" ["__doc__"]]⟩,
  ⟨"anvil.common._generic", false, [.classes "anvil.common._generic" ["NotSet"], .values
    "module" ["enum"], .values "list" ["__all__"], .values "function" ["not_none"], .values
    "NoneType" ["__doc__"]]⟩,
  ⟨"anvil.common._importlib", false, [.values "module" ["contextlib", "importlib", "sys"],
    .values "function" ["overload", "import_class", "appending_to_sys_path"], .values "NoneType"
    ["__doc__"]]⟩,
  ⟨"anvil.common._option_sets", false, [.classes "anvil.common._option_sets" ["LoggingOptions"],
    .values "module" ["argparse"], .values "function" ["dataclass"], .values "NoneType"
    ["__doc__"]]⟩,
  ⟨"anvil.common._text", false, [.classes "anvil.common._text" ["SupportsLen"], .values
    "function" ["pluralize"], .values "NoneType" ["__doc__"]]⟩,
  ⟨"anvil.common._tomlconfig", false, [.classes "anvil.common._tomlconfig" ["TomlConfigFile"],
    .values "module" ["tomli", "tomli_w"], .values "NoneType" ["__doc__"]]⟩,
  ⟨"anvil.common.supplier", false, [.classes "anvil.common.supplier" ["Supplier", "MapSupplier",
    "OfCallableSupplier", "OfSupplier", "VoidSupplier"], .values "module" ["abc"], .values "str"
    ["__doc__"]]⟩,
  ⟨"anvil.core", true, [.classes "anvil.core.system.binder" ["Binder"], .classes
    "anvil.core.system.component" ["DataType", "ProjectComponent"], .classes
    "anvil.core.system.context" ["BuildContext", "BuildOutcome", "BuildResult"], .classes
    "anvil.core.system.element" ["Element"], .classes "anvil.core.system.errors" ["BuildError",
    "ConfigurationError", "DependencyCycleError", "Location", "ReferenceCycleError",
    "TaskError"], .classes "anvil.core.system.filesystem" ["FileSystem", "LocalFileSystem",
    "MemoryFileSystem"], .classes "anvil.core.system.mapper" ["FileNameMapper", "Mapper"],
    .classes "anvil.core.system.paths" ["PathElement", "PathList"], .classes
    "anvil.core.system.project" ["Project"], .classes "anvil.core.system.property" ["Property",
    "PropertyContainer"], .classes "anvil.core.system.references" ["Reference", "Slot"],
    .classes "anvil.core.system.registry" ["ComponentRegistry"], .classes
    "anvil.core.system.target" ["Target"], .classes "anvil.core.system.task"
    ["FailurePolicyTask", "LogLevel", "Task", "TaskStatus", "TaskStatusType"], .classes
    "anvil.core.system.uptodate" ["StalenessEvaluator"], .values "str" ["__version__"], .values
    "function" ["element", "text_content"], .values "list" ["__all__"], .values "module" ["cli",
    "system"], .values "NoneType" ["__doc__"]]⟩,
  ⟨"anvil.core.cli", true, [.values "module" ["main", "option_sets"]]⟩,
  ⟨"anvil.core.cli.main", false, [.classes "anvil.common._option_sets" ["LoggingOptions"],
    .classes "anvil.core.cli.option_sets" ["BuildOptions", "RunOptions"], .classes
    "anvil.core.system.context" ["BuildContext", "BuildOutcome", "BuildResult"], .classes
    "anvil.core.system.errors" ["ConfigurationError"], .classes
    "anvil.core.system.executor.colored" ["ColoredPrintingBuildObserver"], .classes
    "anvil.core.system.project" ["Project"], .values "module" ["argparse", "builtins",
    "logging", "sys", "textwrap"], .values "function" ["colored", "_get_argument_parser",
    "list_targets", "print_result", "on_exception", "main_internal", "main"], .values "str"
    ["__version__"], .values "Logger" ["logger"], .values "partial" ["print"], .values "dict"
    ["EXIT_CODES"], .values "NoneType" ["__doc__"]]⟩,
  ⟨"anvil.core.cli.option_sets", false, [.classes "anvil.core.system.config" ["AnvilConfig"],
    .classes "anvil.core.cli.option_sets" ["BuildOptions", "RunOptions"], .values "module"
    ["dataclasses"], .values "str" ["CONFIG_FILENAME"], .values "function" ["_parse_define"],
    .values "NoneType" ["__doc__"]]⟩,
  ⟨"anvil.core.system", true, [.values "module" ["binder", "component", "config",
    "configurator", "context", "element", "errors", "executor", "filesystem", "graph", "loader",
    "mapper", "paths", "project", "properties", "property", "references", "registry", "target",
    "task", "uptodate"]]⟩,
  ⟨"anvil.core.system.binder", false, [.classes "anvil.core.system.component" ["DataType",
    "ProjectComponent"], .classes "anvil.core.system.errors" ["ConfigurationError", "Location"],
    .classes "anvil.core.system.property" ["Property", "PropertyContainer"], .classes
    "anvil.core.system.references" ["Reference"], .classes "anvil.core.system.binder"
    ["ChildKind", "AttributeSetter", "ChildFactory", "BinderMetadata", "ChildHandle", "Binder"],
    .values "module" ["dataclasses", "enum", "inspect", "logging"], .values "function"
    ["get_annotations", "parse_slot_reference", "normalize_name", "parse_boolean", "element",
    "text_content", "construction_mode", "instantiate", "describe_element", "_coerce_str",
    "_coerce_bool", "_coerce_int", "_coerce_float", "_coerce_path", "_coerce_reference"],
    .values "Logger" ["logger"], .values "str" ["ELEMENT_MARKER", "TEXT_MARKER", "__doc__"],
    .values "frozenset" ["RESERVED_ATTRIBUTES", "DATATYPE_RESERVED_ATTRIBUTES", "TRUE_TOKENS",
    "FALSE_TOKENS"]]⟩,
  ⟨"anvil.core.system.component", false, [.classes "anvil.core.system.errors"
    ["ConfigurationError", "Location"], .classes "anvil.core.system.property"
    ["PropertyContainer"], .classes "anvil.core.system.references" ["Referable", "Reference"],
    .classes "anvil.core.system.component" ["ProjectComponent", "DataType"], .values "module"
    ["logging"], .values "str" ["__doc__"]]⟩,
  ⟨"anvil.core.system.config", false, [.classes "anvil.common._tomlconfig" ["TomlConfigFile"],
    .classes "anvil.core.system.config" ["AnvilConfig"], .values "module" ["dataclasses",
    "logging"], .values "Logger" ["logger"], .values "str" ["CONFIG_FILENAME",
    "DEFAULT_BUILD_FILE", "__doc__"]]⟩,
  ⟨"anvil.core.system.configurator", false, [.classes "anvil.core.system.component" ["DataType",
    "ProjectComponent"], .classes "anvil.core.system.element" ["Element"], .classes
    "anvil.core.system.errors" ["ConfigurationError"], .classes "anvil.core.system.configurator"
    ["Configurator"], .values "module" ["logging"], .values "function" ["describe_element",
    "instantiate"], .values "Logger" ["logger"], .values "str" ["__doc__"]]⟩,
  ⟨"anvil.core.system.context", false, [.classes "anvil.core.system.binder" ["Binder"], .classes
    "anvil.core.system.element" ["Element"], .classes "anvil.core.system.errors" ["BuildError",
    "ConfigurationError", "Location", "TaskError"], .classes "anvil.core.system.executor"
    ["BuildObserver", "NullBuildObserver"], .classes "anvil.core.system.filesystem"
    ["FileSystem", "LocalFileSystem"], .classes "anvil.core.system.loader" ["ProjectLoader"],
    .classes "anvil.core.system.project" ["Project"], .classes "anvil.core.system.registry"
    ["ComponentRegistry"], .classes "anvil.core.system.context" ["BuildOutcome", "BuildResult",
    "BuildContext"], .values "module" ["dataclasses", "enum", "logging"], .values "function"
    ["parse_build_file"], .values "Logger" ["logger"], .values "NoneType" ["__doc__"]]⟩,
  ⟨"anvil.core.system.element", false, [.classes "anvil.core.system.errors" ["Location"],
    .classes "anvil.core.system.element" ["Element"], .values "module" ["dataclasses"], .values
    "str" ["__doc__"]]⟩,
  ⟨"anvil.core.system.errors", false, [.classes "anvil.core.system.errors" ["Location",
    "_LocatedError", "ConfigurationError", "DependencyCycleError", "ReferenceCycleError",
    "TaskError", "BuildError"], .values "module" ["dataclasses"], .values "NoneType"
    ["__doc__"]]⟩,
  ⟨"anvil.core.system.executor", true, [.classes "anvil.core.system.executor" ["BuildObserver",
    "NullBuildObserver", "GraphExecutor"], .values "module" ["abc", "colored", "default"],
    .values "str" ["__doc__"]]⟩,
  ⟨"anvil.core.system.executor.colored", false, [.classes "anvil.core.system.graph"
    ["TargetState", "TargetStatus"], .classes "anvil.core.system.executor.default"
    ["DefaultPrintingBuildObserver"], .classes "anvil.core.system.executor.colored"
    ["ColoredPrintingBuildObserver"], .values "function" ["_colored", "status_to_text"], .values
    "dict" ["COLORS_BY_STATE"], .values "NoneType" ["__doc__"]]⟩,
  ⟨"anvil.core.system.executor.default", false, [.classes "anvil.core.system.errors"
    ["BuildError", "ConfigurationError", "TaskError"], .classes "anvil.core.system.executor"
    ["BuildObserver", "GraphExecutor"], .classes "anvil.core.system.graph" ["TargetGraph",
    "TargetStatus"], .classes "anvil.core.system.target" ["Invocation", "Target"], .classes
    "anvil.core.system.task" ["TaskStatus"], .classes "anvil.core.system.executor.default"
    ["TargetExecutor", "DefaultPrintingBuildObserver"], .values "module" ["builtins", "logging",
    "time"], .values "function" ["pluralize"], .values "str" ["TARGETS_NOT_EXECUTED_TITLE"],
    .values "Logger" ["logger"], .values "partial" ["print"], .values "NoneType" ["__doc__"]]⟩,
  ⟨"anvil.core.system.filesystem", false, [.classes "anvil.core.system.filesystem"
    ["FileSystem", "LocalFileSystem", "MemoryFileSystem"], .values "module" ["abc", "logging",
    "os"], .values "Logger" ["logger"], .values "str" ["__doc__"]]⟩,
  ⟨"anvil.core.system.graph", false, [.classes "anvil.core.system.errors" ["ConfigurationError",
    "DependencyCycleError"], .classes "anvil.core.system.target" ["Target"], .classes
    "anvil.core.system.graph" ["TargetState", "TargetStatus", "TargetGraph"], .values "module"
    ["dataclasses", "enum", "logging"], .values "function" ["find_cycle", "not_none"], .values
    "Logger" ["logger"], .values "NoneType" ["__doc__"]]⟩,
  ⟨"anvil.core.system.loader", false, [.classes "anvil.core.system.element" ["Element"],
    .classes "anvil.core.system.errors" ["ConfigurationError", "Location"], .classes
    "anvil.core.system.target" ["Invocation", "Target"], .classes "anvil.core.system.loader"
    ["ProjectLoader"], .values "module" ["logging", "etree"], .values "function" ["split_names",
    "_convert", "parse_build_file", "parse_build_string"], .values "Logger" ["logger"], .values
    "frozenset" ["TARGET_ATTRIBUTES"], .values "str" ["__doc__"]]⟩,
  ⟨"anvil.core.system.mapper", false, [.classes "anvil.core.system.component" ["DataType"],
    .classes "anvil.core.system.errors" ["ConfigurationError"], .classes
    "anvil.core.system.property" ["Property"], .classes "anvil.core.system.mapper"
    ["FileNameMapper", "IdentityMapper", "FlattenMapper", "MergeMapper", "GlobMapper",
    "RegexpMapper", "MapperType", "Mapper"], .values "module" ["abc", "enum", "re"], .values
    "str" ["__doc__"]]⟩,
  ⟨"anvil.core.system.paths", false, [.classes "anvil.core.system.binder" ["Binder"], .classes
    "anvil.core.system.component" ["DataType", "ProjectComponent"], .classes
    "anvil.core.system.errors" ["ReferenceCycleError"], .classes "anvil.core.system.property"
    ["Property"], .classes "anvil.core.system.paths" ["PathElement", "PathList"], .values
    "function" ["element", "split_path", "_coerce_path_list"], .values "str" ["__doc__"]]⟩,
  ⟨"anvil.core.system.project", false, [.classes "anvil.core.system.element" ["Element"],
    .classes "anvil.core.system.errors" ["ConfigurationError"], .classes
    "anvil.core.system.executor" ["BuildObserver"], .classes
    "anvil.core.system.executor.default" ["TargetExecutor"], .classes "anvil.core.system.graph"
    ["TargetGraph"], .classes "anvil.core.system.properties" ["PropertyStore"], .classes
    "anvil.core.system.references" ["ReferenceRegistry"], .classes "anvil.core.system.target"
    ["Target"], .classes "anvil.core.system.project" ["Project"], .values "module" ["logging"],
    .values "Logger" ["logger"], .values "frozenset" ["BUILTIN_PROPERTIES"], .values "NoneType"
    ["__doc__"]]⟩,
  ⟨"anvil.core.system.properties", false, [.classes "anvil.core.system.properties"
    ["PropertyStore"], .values "module" ["logging", "re"], .values "Logger" ["logger"], .values
    "Pattern" ["PROPERTY_REFERENCE"], .values "str" ["__doc__"]]⟩,
  ⟨"anvil.core.system.property", false, [.classes "anvil.common._generic" ["NotSet"], .classes
    "anvil.common.supplier" ["Supplier"], .classes "anvil.core.system.property"
    ["_PropertyOptions", "PropertyDescriptor", "Property", "PropertyContainer"], .values
    "module" ["copy", "dataclasses", "sys"], .values "function" ["get_annotations",
    "_accepted_types"], .values "str" ["__doc__"]]⟩,
  ⟨"anvil.core.system.references", false, [.classes "anvil.common.supplier" ["Supplier"],
    .classes "anvil.core.system.errors" ["ConfigurationError", "Location",
    "ReferenceCycleError"], .classes "anvil.core.system.references" ["Referable", "Reference",
    "Slot", "ReferenceRegistry"], .values "module" ["abc", "logging", "re"], .values "function"
    ["overload", "parse_slot_reference"], .values "Logger" ["logger"], .values "Pattern"
    ["SLOT_REFERENCE"], .values "str" ["__doc__"]]⟩,
  ⟨"anvil.core.system.registry", false, [.classes "anvil.core.system.task" ["Task"], .classes
    "anvil.core.system.registry" ["ComponentRegistry"], .values "module" ["logging"], .values
    "function" ["entry_points"], .values "Logger" ["logger"], .values "str" ["ENTRYPOINT_GROUP",
    "__doc__"]]⟩,
  ⟨"anvil.core.system.target", false, [.classes "anvil.core.system.configurator"
    ["Configurator"], .classes "anvil.core.system.element" ["Element"], .classes
    "anvil.core.system.errors" ["Location"], .classes "anvil.core.system.task" ["Task",
    "TaskStatus"], .classes "anvil.core.system.target" ["Invocation", "Target"], .values
    "function" ["split_names"], .values "str" ["__doc__"]]⟩,
  ⟨"anvil.core.system.task", false, [.classes "anvil.core.system.component"
    ["ProjectComponent"], .classes "anvil.core.system.errors" ["ConfigurationError",
    "TaskError"], .classes "anvil.core.system.property" ["Property"], .classes
    "anvil.core.system.task" ["TaskStatusType", "TaskStatus", "LogLevel", "Task",
    "FailurePolicyTask"], .values "module" ["abc", "dataclasses", "enum", "logging"], .values
    "str" ["__doc__"]]⟩,
  ⟨"anvil.core.system.uptodate", false, [.classes "anvil.core.system.errors"
    ["ConfigurationError"], .classes "anvil.core.system.filesystem" ["FileSystem"], .classes
    "anvil.core.system.mapper" ["FileNameMapper"], .classes "anvil.core.system.uptodate"
    ["StalenessEvaluator"], .values "module" ["logging"], .values "Logger" ["logger"], .values
    "str" ["__doc__"]]⟩,
  ⟨"anvil.std", true, [.classes "anvil.core.system.registry" ["ComponentRegistry"], .classes
    "anvil.core.system.mapper" ["Mapper"], .classes "anvil.core.system.paths" ["PathList"],
    .classes "anvil.std.call_task" ["CallTask"], .classes "anvil.std.definition_task"
    ["TaskdefTask", "TypedefTask"], .classes "anvil.std.delete_task" ["DeleteTask"], .classes
    "anvil.std.echo_task" ["EchoTask"], .classes "anvil.std.fail_task" ["FailTask"], .classes
    "anvil.std.filelist" ["FileList"], .classes "anvil.std.property_task" ["PropertyTask"],
    .classes "anvil.std.touch_task" ["TouchTask"], .classes "anvil.std.uptodate_task"
    ["UpToDateTask"], .values "list" ["__all__"], .values "function" ["register_defaults"],
    .values "module" ["call_task", "definition_task", "delete_task", "echo_task", "fail_task",
    "filelist", "property_task", "touch_task", "uptodate_task"], .values "str" ["__doc__"]]⟩,
  ⟨"anvil.std.call_task", false, [.classes "anvil.core.system.errors" ["BuildError",
    "ConfigurationError", "TaskError"], .classes "anvil.core.system.property" ["Property"],
    .classes "anvil.core.system.component" ["ProjectComponent"], .classes
    "anvil.core.system.task" ["Task"], .classes "anvil.core.system.executor"
    ["NullBuildObserver"], .classes "anvil.std.call_task" ["Param", "ReferenceForward",
    "CallTask"], .values "function" ["element"], .values "NoneType" ["__doc__"]]⟩,
  ⟨"anvil.std.definition_task", false, [.classes "anvil.core.system.errors"
    ["ConfigurationError"], .classes "anvil.core.system.paths" ["PathList"], .classes
    "anvil.core.system.property" ["Property"], .classes "anvil.core.system.task" ["Task"],
    .classes "anvil.std.definition_task" ["_DefinitionTask", "TaskdefTask", "TypedefTask"],
    .values "module" ["abc"], .values "function" ["appending_to_sys_path", "import_class"],
    .values "str" ["__doc__"]]⟩,
  ⟨"anvil.std.delete_task", false, [.classes "anvil.core.system.errors" ["ConfigurationError"],
    .classes "anvil.core.system.task" ["FailurePolicyTask"], .classes
    "anvil.core.system.property" ["Property"], .classes "anvil.std.filelist" ["FileList"],
    .classes "anvil.std.delete_task" ["DeleteTask"], .values "module" ["logging"], .values
    "function" ["pluralize", "element"], .values "NoneType" ["__doc__"]]⟩,
  ⟨"anvil.std.echo_task", false, [.classes "anvil.core.system.task" ["LogLevel", "Task"],
    .classes "anvil.core.system.property" ["Property"], .classes "anvil.std.echo_task"
    ["EchoTask"], .values "function" ["text_content"], .values "NoneType" ["__doc__"]]⟩,
  ⟨"anvil.std.fail_task", false, [.classes "anvil.core.system.property" ["Property"], .classes
    "anvil.core.system.task" ["Task", "TaskStatus"], .classes "anvil.core.system.errors"
    ["TaskError"], .classes "anvil.std.fail_task" ["FailTask"], .values "function"
    ["text_content"], .values "NoneType" ["__doc__"]]⟩,
  ⟨"anvil.std.filelist", false, [.classes "anvil.core.system.errors" ["ConfigurationError"],
    .classes "anvil.core.system.component" ["DataType", "ProjectComponent"], .classes
    "anvil.core.system.property" ["Property"], .classes "anvil.std.filelist" ["FileName",
    "FileList"], .values "module" ["re"], .values "function" ["element"], .values "Pattern"
    ["FILE_SEPARATOR"], .values "NoneType" ["__doc__"]]⟩,
  ⟨"anvil.std.property_task", false, [.classes "anvil.core.system.errors"
    ["ConfigurationError"], .classes "anvil.core.system.property" ["Property"], .classes
    "anvil.core.system.task" ["Task", "TaskStatus"], .classes "anvil.std.property_task"
    ["PropertyTask"], .values "NoneType" ["__doc__"]]⟩,
  ⟨"anvil.std.touch_task", false, [.classes "anvil.core.system.property" ["Property"], .classes
    "anvil.core.system.task" ["Task"], .classes "anvil.std.touch_task" ["TouchTask"], .values
    "NoneType" ["__doc__"]]⟩,
  ⟨"anvil.std.uptodate_task", false, [.classes "anvil.core.system.errors"
    ["ConfigurationError"], .classes "anvil.core.system.mapper" ["Mapper"], .classes
    "anvil.core.system.property" ["Property"], .classes "anvil.core.system.uptodate"
    ["StalenessEvaluator"], .classes "anvil.core.system.task" ["Task", "TaskStatus"], .classes
    "anvil.std.filelist" ["FileList"], .classes "anvil.std.uptodate_task" ["UpToDateTask"],
    .values "function" ["element"], .values "NoneType" ["__doc__"]]⟩]

/-- The classes that are derived from others, with those they are derived from directly. -/
def bases : List (String × List String) := [
  ("anvil.common.supplier.MapSupplier", ["anvil.common.supplier.Supplier"]),
  ("anvil.common.supplier.OfCallableSupplier", ["anvil.common.supplier.Supplier"]),
  ("anvil.common.supplier.OfSupplier", ["anvil.common.supplier.Supplier"]),
  ("anvil.common.supplier.VoidSupplier", ["anvil.common.supplier.Supplier"]),
  ("anvil.core.system.component.DataType", ["anvil.core.system.component.ProjectComponent",
    "anvil.core.system.references.Referable"]),
  ("anvil.core.system.component.ProjectComponent",
    ["anvil.core.system.property.PropertyContainer"]),
  ("anvil.core.system.errors.ConfigurationError", ["anvil.core.system.errors._LocatedError"]),
  ("anvil.core.system.errors.DependencyCycleError",
    ["anvil.core.system.errors.ConfigurationError"]),
  ("anvil.core.system.errors.ReferenceCycleError",
    ["anvil.core.system.errors.ConfigurationError"]),
  ("anvil.core.system.errors.TaskError", ["anvil.core.system.errors._LocatedError"]),
  ("anvil.core.system.executor.NullBuildObserver", ["anvil.core.system.executor.BuildObserver"]),
  ("anvil.core.system.executor.colored.ColoredPrintingBuildObserver",
    ["anvil.core.system.executor.default.DefaultPrintingBuildObserver"]),
  ("anvil.core.system.executor.default.DefaultPrintingBuildObserver",
    ["anvil.core.system.executor.BuildObserver"]),
  ("anvil.core.system.executor.default.TargetExecutor",
    ["anvil.core.system.executor.GraphExecutor"]),
  ("anvil.core.system.filesystem.LocalFileSystem", ["anvil.core.system.filesystem.FileSystem"]),
  ("anvil.core.system.filesystem.MemoryFileSystem", ["anvil.core.system.filesystem.FileSystem"]),
  ("anvil.core.system.mapper.FlattenMapper", ["anvil.core.system.mapper.FileNameMapper"]),
  ("anvil.core.system.mapper.GlobMapper", ["anvil.core.system.mapper.FileNameMapper"]),
  ("anvil.core.system.mapper.IdentityMapper", ["anvil.core.system.mapper.FileNameMapper"]),
  ("anvil.core.system.mapper.Mapper", ["anvil.core.system.component.DataType"]),
  ("anvil.core.system.mapper.MergeMapper", ["anvil.core.system.mapper.FileNameMapper"]),
  ("anvil.core.system.mapper.RegexpMapper", ["anvil.core.system.mapper.FileNameMapper"]),
  ("anvil.core.system.paths.PathElement", ["anvil.core.system.component.ProjectComponent"]),
  ("anvil.core.system.paths.PathList", ["anvil.core.system.component.DataType"]),
  ("anvil.core.system.property.Property", ["anvil.common.supplier.Supplier"]),
  ("anvil.core.system.references.Slot", ["anvil.common.supplier.Supplier"]),
  ("anvil.core.system.task.FailurePolicyTask", ["anvil.core.system.task.Task"]),
  ("anvil.core.system.task.Task", ["anvil.core.system.component.ProjectComponent"]),
  ("anvil.std.call_task.CallTask", ["anvil.core.system.task.Task"]),
  ("anvil.std.call_task.Param", ["anvil.core.system.component.ProjectComponent"]),
  ("anvil.std.call_task.ReferenceForward", ["anvil.core.system.component.ProjectComponent"]),
  ("anvil.std.definition_task.TaskdefTask", ["anvil.std.definition_task._DefinitionTask"]),
  ("anvil.std.definition_task.TypedefTask", ["anvil.std.definition_task._DefinitionTask"]),
  ("anvil.std.definition_task._DefinitionTask", ["anvil.core.system.task.Task"]),
  ("anvil.std.delete_task.DeleteTask", ["anvil.core.system.task.FailurePolicyTask"]),
  ("anvil.std.echo_task.EchoTask", ["anvil.core.system.task.Task"]),
  ("anvil.std.fail_task.FailTask", ["anvil.core.system.task.Task"]),
  ("anvil.std.filelist.FileList", ["anvil.core.system.component.DataType"]),
  ("anvil.std.filelist.FileName", ["anvil.core.system.component.ProjectComponent"]),
  ("anvil.std.property_task.PropertyTask", ["anvil.core.system.task.Task"]),
  ("anvil.std.touch_task.TouchTask", ["anvil.core.system.task.Task"]),
  ("anvil.std.uptodate_task.UpToDateTask", ["anvil.core.system.task.Task"])]

/-- The names that all modules have for themselves, with the types of what they stand for. -/
def ownNames : List (String × String) := [("__name__", "str"), ("__package__", "str"),
  ("__file__", "str"), ("__spec__", "ModuleSpec"), ("__builtins__", "dict")]

/-- What a name of a module leads to: a class, or something of another type. -/
def member? (m : Module) (name : String) : Option (ClassName ⊕ String) :=
  let offered := m.offers.findSome? fun
    | .classes home names => if names.contains name then some (.inl ⟨home, name⟩) else none
    | .values type names => if names.contains name then some (.inr type) else none
  offered.or ((ownNames.find? fun entry => entry.1 == name).map fun entry => .inr entry.2)

/-- A module of the catalogue. -/
def find? (name : String) : Option Module := modules.find? fun m => m.name == name

/-- The names of a dotted name and of all that it starts with, shortest first. -/
def lineage (name : String) : List String :=
  let parts := splitOn (· == '.') name.toList
  (List.range parts.length).map fun n =>
    String.ofList (['.'].intercalate (parts.take (n + 1)))

/-- Finds a module by way of the packages that it lies in. -/
def findThrough (last : Option Module) : List String → Except LookupError Module
  | [] => .ok (last.getD default)
  | name :: rest =>
    match last, find? name with
    | some parent, none =>
      if parent.isPackage then .error (.noModule name) else .error (.noPackage name parent.name)
    | none, none => .error (.noModule name)
    | _, some found => findThrough (some found) rest

def importModule (name : String) : Except LookupError Module :=
  if name.front == '.' then .error (.relative name) else findThrough none (lineage name)

/-- A qualified name as the names of a module and of a class: a colon separates them, or else the
last point. -/
def splitName (name : String) : List Char × List Char :=
  let cs := name.toList
  if cs.contains ':' then (cs.takeWhile (· != ':'), (cs.dropWhile (· != ':')).drop 1)
  else
    let last := (cs.reverse.takeWhile (· != '.')).reverse
    (cs.take (cs.length - last.length - 1), last)

def lookup (name : String) : Except LookupError ClassName := do
  let (module, last) := splitName name
  if module.isEmpty || last.isEmpty then throw (.notQualified name)
  let m ← importModule (String.ofList module)
  match member? m (String.ofList last) with
  | none => throw (.noMember m.name (String.ofList last))
  | some (.inr type) => throw (.noClass name type)
  | some (.inl found) => return found

/-- Whether a class is another one or derived from it, over a number of steps. -/
def derives (ancestor : ClassName) : Nat → String → Bool
  | steps, name =>
    name == ancestor.text ||
      match steps, bases.find? fun entry => entry.1 == name with
      | more + 1, some entry => entry.2.any (derives ancestor more)
      | _, _ => false

/-- The class of a qualified name, which has to be derived from another class. -/
def lookupBelow (base : ClassName) (name : String) : Except LookupError ClassName := do
  let found ← lookup name
  if derives base bases.length found.text then return found
  throw (.otherBase name base.name found.name)

/-- The class of a qualified name, which has to be derived from the class of another name, if one is
given. -/
def lookupUnder (base : Option String) (name : String) : Except LookupError ClassName :=
  match base with
  | none => lookup name
  | some above => do lookupBelow (← lookup above) name

/-- The standard kind whose objects are those of a class. -/
def kindOf? (c : ClassName) : Option Kind :=
  Kinds.standard.all.find? fun k => k.declaration.home == c.home && k.name == c.name

end Catalogue
end BuildEngine
