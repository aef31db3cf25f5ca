/-
The host table: every function a module may import from the `host` namespace.

Each entry has an import name and a type.  The type is what linking compares; the
number of parameters is also checked beforehand, so that a wrong declaration is
reported by name.
-/
import ModuleHost.Value.Bytes
import ModuleHost.Wasm.Type

namespace ModuleHost

/-- A function of the host table. -/
inductive HostFunc where
  | print | dateNow | performanceNow | globalThis | isWindows
  | setTimeout | setInterval | clearTimeout | clearInterval | queueMicrotask
  | typeTag | undefined | isUndefined | identical | boxBool | unboxBool | boxNumber
  | unboxNumber | toDisplayString | isError | errorMessage
  | stringToModule
  /-- Read a string whose units have two bytes if it is `wide`, else one. -/
  | stringFromModule (wide : Bool)
  | decodeUtf8
  | arrayNew | arrayLength | arrayGet | arraySet | arrayPush | arrayFromModuleList
  | objectNew | objectGet | objectSet | objectHas | objectDelete | objectKeys
  /-- Wrap a closure with so many parameters. -/
  | wrapFunction (arity : Fin 4)
  | isModuleFunction | unwrapFunction | callFunction
  | finalizationRegistryNew | finalizationRegister | finalizationUnregister
  | arrayBufferNew | arrayBufferByteLength
  | typedArrayNew | typedArrayLength | typedArrayGet | typedArraySet
  | typedArrayCopyFromModule | typedArrayCopyToModule | typedArrayFromModuleList
  | dataViewNew | dataViewOf | dataViewByteLength | dataViewCopy | dataViewFromModule
  | dataViewGet (type : Scalar)
  | dataViewSet (type : Scalar)
  deriving DecidableEq, Repr

namespace Scalar

/-- Name of the type within the names of data view accessors. -/
def accessorName : Scalar → String
  | int8 => "int8"
  | uint8 => "uint8"
  | int16 => "int16"
  | uint16 => "uint16"
  | int32 => "int32"
  | uint32 => "uint32"
  | bigInt64 => "big_int64"
  | bigUint64 => "big_uint64"
  | float32 => "float32"
  | float64 => "float64"

/-- Type of the scalar as a parameter or result. -/
def valType : Scalar → ValType
  | bigInt64 | bigUint64 => .i64
  | float32 => .f32
  | float64 => .f64
  | _ => .i32

/-- The byte order parameter, which one-byte accessors do not have. -/
def orderParam (t : Scalar) : List ValType := if t.width = 1 then [] else [.i32]

end Scalar

namespace HostFunc

/-- Namespace of the host table. -/
def space : String := "host"

/-- Every entry, in the order of the table. -/
def all : List HostFunc :=
  [print, dateNow, performanceNow, globalThis, isWindows,
    setTimeout, setInterval, clearTimeout, clearInterval, queueMicrotask,
    typeTag, undefined, isUndefined, identical, boxBool, unboxBool, boxNumber,
    unboxNumber, toDisplayString, isError, errorMessage,
    stringToModule, stringFromModule false, stringFromModule true, decodeUtf8,
    arrayNew, arrayLength, arrayGet, arraySet, arrayPush, arrayFromModuleList,
    objectNew, objectGet, objectSet, objectHas, objectDelete, objectKeys,
    wrapFunction 0, wrapFunction 1, wrapFunction 2, wrapFunction 3,
    isModuleFunction, unwrapFunction, callFunction,
    finalizationRegistryNew, finalizationRegister, finalizationUnregister,
    arrayBufferNew, arrayBufferByteLength,
    typedArrayNew, typedArrayLength, typedArrayGet, typedArraySet,
    typedArrayCopyFromModule, typedArrayCopyToModule, typedArrayFromModuleList,
    dataViewNew, dataViewOf, dataViewByteLength, dataViewCopy, dataViewFromModule] ++
  Scalar.all.map dataViewGet ++ Scalar.all.map dataViewSet

/-- Import name. -/
def name : HostFunc → String
  | print => "print"
  | dateNow => "date_now"
  | performanceNow => "performance_now"
  | globalThis => "global_this"
  | isWindows => "is_windows"
  | setTimeout => "set_timeout"
  | setInterval => "set_interval"
  | clearTimeout => "clear_timeout"
  | clearInterval => "clear_interval"
  | queueMicrotask => "queue_microtask"
  | typeTag => "type_tag"
  | undefined => "undefined"
  | isUndefined => "is_undefined"
  | identical => "identical"
  | boxBool => "box_bool"
  | unboxBool => "unbox_bool"
  | boxNumber => "box_number"
  | unboxNumber => "unbox_number"
  | toDisplayString => "to_display_string"
  | isError => "is_error"
  | errorMessage => "error_message"
  | stringToModule => "string_to_module"
  | stringFromModule wide => if wide then "string_from_module_2" else "string_from_module_1"
  | decodeUtf8 => "decode_utf8"
  | arrayNew => "array_new"
  | arrayLength => "array_length"
  | arrayGet => "array_get"
  | arraySet => "array_set"
  | arrayPush => "array_push"
  | arrayFromModuleList => "array_from_module_list"
  | objectNew => "object_new"
  | objectGet => "object_get"
  | objectSet => "object_set"
  | objectHas => "object_has"
  | objectDelete => "object_delete"
  | objectKeys => "object_keys"
  | wrapFunction arity => s!"wrap_function_{arity.val}"
  | isModuleFunction => "is_module_function"
  | unwrapFunction => "unwrap_function"
  | callFunction => "call_function"
  | finalizationRegistryNew => "finalization_registry_new"
  | finalizationRegister => "finalization_register"
  | finalizationUnregister => "finalization_unregister"
  | arrayBufferNew => "array_buffer_new"
  | arrayBufferByteLength => "array_buffer_byte_length"
  | typedArrayNew => "typed_array_new"
  | typedArrayLength => "typed_array_length"
  | typedArrayGet => "typed_array_get"
  | typedArraySet => "typed_array_set"
  | typedArrayCopyFromModule => "typed_array_copy_from_module"
  | typedArrayCopyToModule => "typed_array_copy_to_module"
  | typedArrayFromModuleList => "typed_array_from_module_list"
  | dataViewNew => "data_view_new"
  | dataViewOf => "data_view_of"
  | dataViewByteLength => "data_view_byte_length"
  | dataViewCopy => "data_view_copy"
  | dataViewFromModule => "data_view_from_module"
  | dataViewGet t => "data_view_get_" ++ t.accessorName
  | dataViewSet t => "data_view_set_" ++ t.accessorName

/-- The entry with an import name. -/
def ofName? (name : String) : Option HostFunc := all.find? (·.name = name)

/-- The import name in one word, each part with a capital letter. -/
def title (i : HostFunc) : String := String.join ((i.name.splitOn "_").map String.capitalize)

/-- Parameter and result types. -/
def type : HostFunc → FuncType
  | print => ⟨[.externref], []⟩
  | dateNow | performanceNow => ⟨[], [.f64]⟩
  | globalThis | undefined | arrayNew | objectNew => ⟨[], [.externref]⟩
  | isWindows => ⟨[], [.i32]⟩
  | setTimeout | setInterval => ⟨[.i32, .f64], [.i32]⟩
  | clearTimeout | clearInterval | queueMicrotask => ⟨[.i32], []⟩
  | typeTag | isUndefined | unboxBool | isError | stringToModule | arrayLength
  | isModuleFunction | unwrapFunction | arrayBufferByteLength | typedArrayLength
  | dataViewByteLength => ⟨[.externref], [.i32]⟩
  | identical | objectHas | objectDelete | finalizationUnregister =>
    ⟨[.externref, .externref], [.i32]⟩
  | boxBool | arrayFromModuleList | wrapFunction _ | arrayBufferNew | dataViewNew =>
    ⟨[.i32], [.externref]⟩
  | boxNumber => ⟨[.f64], [.externref]⟩
  | unboxNumber => ⟨[.externref], [.f64]⟩
  | toDisplayString | errorMessage | objectKeys | finalizationRegistryNew =>
    ⟨[.externref], [.externref]⟩
  | stringFromModule _ | decodeUtf8 | typedArrayNew | typedArrayFromModuleList
  | dataViewFromModule => ⟨[.i32, .i32], [.externref]⟩
  | arrayGet => ⟨[.externref, .i32], [.externref]⟩
  | arraySet => ⟨[.externref, .i32, .externref], []⟩
  | arrayPush => ⟨[.externref, .externref], []⟩
  | objectGet | callFunction => ⟨[.externref, .externref], [.externref]⟩
  | objectSet => ⟨[.externref, .externref, .externref], []⟩
  | finalizationRegister => ⟨[.externref, .externref, .externref, .externref], []⟩
  | typedArrayGet => ⟨[.externref, .i32], [.f64]⟩
  | typedArraySet => ⟨[.externref, .i32, .f64], []⟩
  | typedArrayCopyFromModule | typedArrayCopyToModule => ⟨[.externref, .i32, .i32, .i32], []⟩
  | dataViewOf | dataViewCopy => ⟨[.externref, .i32, .i32], [.externref]⟩
  | dataViewGet t => ⟨[.externref, .i32] ++ t.orderParam, [t.valType]⟩
  | dataViewSet t => ⟨[.externref, .i32, t.valType] ++ t.orderParam, []⟩

/-- Number of parameters. -/
def arity (i : HostFunc) : Nat := i.type.params.length

end HostFunc

end ModuleHost
