import WasmLowering.C.Preamble

/-! The support library that written code is linked with: memories, tables,
function types, the depth of calls, and traps. -/

namespace WasmLowering.C

def supportHeaderName : String := "wasm-rt.h"

def supportSourceName : String := "wasm-rt-impl.c"

def supportHeaderLines : List String :=
  ["#ifndef WASM_RT_H_",
    "#define WASM_RT_H_",
    "",
    "#include <stdint.h>",
    "",
    "#ifdef __cplusplus",
    "extern \"C\" \x7b",
    "#endif",
    "",
    "/* Maximum nesting of generated function calls before the runtime traps with",
    " * WASM_RT_TRAP_EXHAUSTION. */",
    "#ifndef WASM_RT_MAX_CALL_STACK_DEPTH",
    "#define WASM_RT_MAX_CALL_STACK_DEPTH 500",
    "#endif",
    "",
    "#define WASM_RT_INCLUDED_ 1",
    "",
    "typedef enum \x7b",
    "  WASM_RT_TRAP_NONE,",
    "  WASM_RT_TRAP_OOB,",
    "  WASM_RT_TRAP_INT_OVERFLOW,",
    "  WASM_RT_TRAP_DIV_BY_ZERO,",
    "  WASM_RT_TRAP_INVALID_CONVERSION,",
    "  WASM_RT_TRAP_UNREACHABLE,",
    "  WASM_RT_TRAP_CALL_INDIRECT,",
    "  WASM_RT_TRAP_EXHAUSTION,",
    "\x7d wasm_rt_trap_t;",
    "",
    "typedef enum \x7b",
    "  WASM_RT_I32,",
    "  WASM_RT_I64,",
    "  WASM_RT_F32,",
    "  WASM_RT_F64,",
    "\x7d wasm_rt_type_t;",
    "",
    "typedef void (*wasm_rt_anyfunc_t)(void);",
    "",
    "typedef struct \x7b",
    "  uint32_t func_type;",
    "  wasm_rt_anyfunc_t func;",
    "\x7d wasm_rt_elem_t;",
    "",
    "typedef struct \x7b",
    "  uint8_t* data;",
    "  uint32_t pages, max_pages;",
    "  uint64_t size;",
    "\x7d wasm_rt_memory_t;",
    "",
    "typedef struct \x7b",
    "  wasm_rt_elem_t* data;",
    "  uint32_t max_size;",
    "  uint32_t size;",
    "\x7d wasm_rt_table_t;",
    "",
    "/* Stops execution. Never returns. */",
    "extern void wasm_rt_trap(wasm_rt_trap_t) __attribute__((noreturn));",
    "",
    "/* Returns a unique id for the signature; equal signatures share an id. */",
    "extern uint32_t wasm_rt_register_func_type(uint32_t params, uint32_t results, ...);",
    "",
    "extern void wasm_rt_allocate_memory(wasm_rt_memory_t*, uint32_t initial_pages, uint32_t max_pages);",
    "",
    "/* Returns the previous page count, or (uint32_t)-1 when the memory cannot",
    " * grow by delta pages. */",
    "extern uint32_t wasm_rt_grow_memory(wasm_rt_memory_t*, uint32_t delta);",
    "",
    "extern void wasm_rt_allocate_table(wasm_rt_table_t*, uint32_t elements, uint32_t max_elements);",
    "",
    "extern uint32_t wasm_rt_call_stack_depth;",
    "",
    "/* Runs fn and reports the trap that stopped it, or WASM_RT_TRAP_NONE. */",
    "extern wasm_rt_trap_t wasm_rt_try(void (*fn)(void* arg), void* arg);",
    "",
    "#ifdef __cplusplus",
    "\x7d",
    "#endif",
    "",
    "#endif /* WASM_RT_H_ */"]

def supportSourceLines : List String :=
  ["#include \"wasm-rt.h\"",
    "",
    "#include <setjmp.h>",
    "#include <stdarg.h>",
    "#include <stdio.h>",
    "#include <stdlib.h>",
    "#include <string.h>",
    "",
    "#define PAGE_SIZE 65536",
    "",
    "typedef struct \x7b",
    "  uint32_t param_count;",
    "  uint32_t result_count;",
    "  wasm_rt_type_t* types;",
    "\x7d func_type_t;",
    "",
    "uint32_t wasm_rt_call_stack_depth;",
    "",
    "static func_type_t* func_types;",
    "static uint32_t func_types_count;",
    "",
    "static jmp_buf* trap_handler;",
    "",
    "void wasm_rt_trap(wasm_rt_trap_t code) \x7b",
    "  if (trap_handler == NULL) \x7b",
    "    fprintf(stderr, \"wasm trap %d\\n\", (int)code);",
    "    abort();",
    "  \x7d",
    "  longjmp(*trap_handler, (int)code);",
    "\x7d",
    "",
    "wasm_rt_trap_t wasm_rt_try(void (*fn)(void* arg), void* arg) \x7b",
    "  jmp_buf handler;",
    "  jmp_buf* saved = trap_handler;",
    "  uint32_t saved_depth = wasm_rt_call_stack_depth;",
    "  int code;",
    "",
    "  trap_handler = &handler;",
    "  code = setjmp(handler);",
    "  if (code == 0) \x7b",
    "    fn(arg);",
    "  \x7d else \x7b",
    "    wasm_rt_call_stack_depth = saved_depth;",
    "  \x7d",
    "  trap_handler = saved;",
    "  return (wasm_rt_trap_t)code;",
    "\x7d",
    "",
    "static int func_types_equal(const func_type_t* a, const func_type_t* b) \x7b",
    "  uint32_t n = a->param_count + a->result_count;",
    "  return a->param_count == b->param_count &&",
    "         a->result_count == b->result_count &&",
    "         memcmp(a->types, b->types, n * sizeof(wasm_rt_type_t)) == 0;",
    "\x7d",
    "",
    "uint32_t wasm_rt_register_func_type(uint32_t params, uint32_t results, ...) \x7b",
    "  func_type_t ft;",
    "  uint32_t i;",
    "  va_list args;",
    "",
    "  ft.param_count = params;",
    "  ft.result_count = results;",
    "  ft.types = malloc((params + results) * sizeof(wasm_rt_type_t) + 1);",
    "  va_start(args, results);",
    "  for (i = 0; i < params + results; ++i) \x7b",
    "    ft.types[i] = (wasm_rt_type_t)va_arg(args, int);",
    "  \x7d",
    "  va_end(args);",
    "",
    "  for (i = 0; i < func_types_count; ++i) \x7b",
    "    if (func_types_equal(&func_types[i], &ft)) \x7b",
    "      free(ft.types);",
    "      return i + 1;",
    "    \x7d",
    "  \x7d",
    "",
    "  func_types = realloc(func_types, (func_types_count + 1) * sizeof(func_type_t));",
    "  func_types[func_types_count] = ft;",
    "  return ++func_types_count;",
    "\x7d",
    "",
    "void wasm_rt_allocate_memory(wasm_rt_memory_t* memory, uint32_t initial_pages, uint32_t max_pages) \x7b",
    "  memory->pages = initial_pages;",
    "  memory->max_pages = max_pages;",
    "  memory->size = (uint64_t)initial_pages * PAGE_SIZE;",
    "  memory->data = calloc(memory->size ? memory->size : 1, 1);",
    "  if (memory->data == NULL) \x7b",
    "    fprintf(stderr, \"wasm-rt: cannot allocate %llu bytes\\n\", (unsigned long long)memory->size);",
    "    abort();",
    "  \x7d",
    "\x7d",
    "",
    "uint32_t wasm_rt_grow_memory(wasm_rt_memory_t* memory, uint32_t delta) \x7b",
    "  uint32_t old_pages = memory->pages;",
    "  uint64_t new_pages = (uint64_t)old_pages + delta;",
    "  uint64_t new_size;",
    "  uint8_t* data;",
    "",
    "  if (delta == 0) \x7b",
    "    return old_pages;",
    "  \x7d",
    "  if (new_pages > memory->max_pages || new_pages > 65536) \x7b",
    "    return (uint32_t)-1;",
    "  \x7d",
    "  new_size = new_pages * PAGE_SIZE;",
    "  data = realloc(memory->data, new_size);",
    "  if (data == NULL) \x7b",
    "    return (uint32_t)-1;",
    "  \x7d",
    "  memset(data + memory->size, 0, new_size - memory->size);",
    "  memory->data = data;",
    "  memory->pages = (uint32_t)new_pages;",
    "  memory->size = new_size;",
    "  return old_pages;",
    "\x7d",
    "",
    "void wasm_rt_allocate_table(wasm_rt_table_t* table, uint32_t elements, uint32_t max_elements) \x7b",
    "  table->size = elements;",
    "  table->max_size = max_elements;",
    "  table->data = calloc(elements ? elements : 1, sizeof(wasm_rt_elem_t));",
    "  if (table->data == NULL) \x7b",
    "    fprintf(stderr, \"wasm-rt: cannot allocate table of %u elements\\n\", elements);",
    "    abort();",
    "  \x7d",
    "\x7d"]

def supportHeader : String := unlines supportHeaderLines

def supportSource : String := unlines supportSourceLines

end WasmLowering.C
